import ApiBinding.Proofs.Code.Literal
import ApiBinding.Proofs.Identifier
import ApiBinding.Proofs.TypeHint
import Mathlib.Data.List.TakeWhile

/-!
Names and type hints in generated code: made names are read as names of their own, and the hint of a
shape names no support class.
-/

namespace ApiBinding.Code

open Identifier (ofRaw)

theorem isPathChar_of_isAlphanum {c : Char} (h : c.isAlphanum = true) : isPathChar c = true := by
  simp [isPathChar, h]

theorem isPathChar_of_isSmall {c : Char} (h : Identifier.isSmall c = true) :
    isPathChar c = true := by
  rw [Identifier.isSmall, Bool.or_eq_true] at h
  rcases h with word | underscore
  · exact isPathChar_of_isAlphanum (by rw [Identifier.isAlphanum_eq, Bool.or_assoc, word, Bool.or_true])
  · simp [isPathChar, underscore]

theorem all_mono {p q : Char → Bool} {cs : List Char} (h : cs.all p = true)
    (weaker : ∀ c, p c = true → q c = true) : cs.all q = true :=
  List.all_eq_true.mpr fun c member => weaker c (List.all_eq_true.mp h c member)

theorem rootOf_of_isAlphanum {cs : List Char} (h : cs.all Char.isAlphanum = true) :
    rootOf cs = String.ofList cs := by
  rw [rootOf, List.takeWhile_eq_self_iff.mpr]
  intro c member
  rw [bne_iff_ne]
  rintro rfl
  cases List.all_eq_true.mp h '.' member

/-- A name of letters and digits is read as it is. -/
theorem says_of_isAlphanum {allowed : String → Prop} {name : String}
    (h : name.toList.all Char.isAlphanum = true) (named : allowed name) :
    SaysOnly allowed name := by
  refine says_of_path (all_mono h fun c => isPathChar_of_isAlphanum) ?_
  rwa [rootOf_of_isAlphanum h, String.ofList_toList]

/-- The name of a type is that of no support class. -/
theorem allows_type (raw : String) : Allows [] (ofRaw .type raw) := by
  intro member
  have known : SupportClass.all.map SupportClass.name ⊆ Identifier.forbidden .type := by decide
  have free := Identifier.isForbidden_ofRaw .type raw
  rw [Identifier.isForbidden, List.contains_iff_mem.mpr (known member)] at free
  cases free

theorem says_type (raw : String) : Says [] (ofRaw .type raw) :=
  says_of_isAlphanum (Identifier.all_type raw) (allows_type raw)

theorem isQuiet_of_isSmall {c : Char} (h : Identifier.isSmall c = true) : isQuiet c = true := by
  have ascii : c.toNat < 128 := by
    rw [Identifier.isSmall, Bool.or_eq_true, Bool.or_eq_true, beq_iff_eq] at h
    rcases h with (lower | digit) | rfl
    · exact Identifier.toNat_lt_of_isAlphanum (by simp [Identifier.isAlphanum_eq, lower])
    · exact Identifier.toNat_lt_of_isAlphanum (by simp [Identifier.isAlphanum_eq, digit])
    · decide
  revert h
  exact Text.forall_ascii (motive := fun c => Identifier.isSmall c = true → isQuiet c = true)
    (by decide +kernel) ascii

theorem says_small {role : Identifier.Role} (other : role ≠ .type) (raw : String) :
    Says [] (ofRaw role raw) :=
  says_of_quiet (all_mono (Identifier.all_small other raw) fun _ => isQuiet_of_isSmall)

mutual

/-- Whether what a hint names may stand in code that relies on the given support classes. -/
def Fits (support : List SupportClass) : TypeHint → Prop
  | .named name _ _ => Says support name
  | .applied (.generic name) arguments _ => Says support name ∧ AllFit support arguments
  | .applied _ arguments _ => AllFit support arguments
  | _ => True

def AllFit (support : List SupportClass) : List TypeHint → Prop
  | [] => True
  | hint :: rest => Fits support hint ∧ AllFit support rest

end

section

variable {support : List SupportClass}

theorem says_optional {base : String} (h : Says support base) (style : TypeHint.Style) :
    Says support (TypeHint.optionalText style base) := by
  have null : Says [] " | None" := by decide
  have opens : Closes [] "Optional[" := by decide
  have closes : Joins [] "]" := by decide
  unfold TypeHint.optionalText
  split
  · exact h
  · split
    · exact h.append (by decide) null.of_nil
    · exact ((opens.of_nil.append h).join closes.of_nil).toSays

theorem says_container {container : Container} {arguments : String}
    (named : ∀ name, container = .generic name → Says support name)
    (h : Says support arguments) : Says support (TypeHint.Container.text container arguments) := by
  have closes : Joins [] "]" := by decide
  have within {lead : String} (opens : Closes support lead) :
      Says support (lead ++ arguments ++ "]") := ((opens.append h).join closes.of_nil).toSays
  cases container with
  | list => exact within (ClosesOnly.of_nil (by decide))
  | mapping => exact within (ClosesOnly.of_nil (by decide))
  | stream => exact within (ClosesOnly.of_nil (by decide))
  | producer => exact within (ClosesOnly.of_nil (by decide))
  | generic name => exact within ((named name rfl).join (JoinsOnly.of_nil (by decide)))

theorem says_orNull {base : String} (h : Says support base) (style : TypeHint.Style)
    (nullable : Bool) :
    Says support (if nullable then TypeHint.optionalText style base else base) := by
  split
  · exact says_optional h style
  · exact h

theorem says_literals (members : List Value) :
    Says support ("Literal[" ++ Text.joined ", " (members.map Value.literal) ++ "]") := by
  have opens : Closes [] "Literal[" := by decide
  have closes : Joins [] "]" := by decide
  have inside : Says [] (Text.joined ", " (members.map Value.literal)) := by
    refine says_joined (by decide) fun s member => ?_
    obtain ⟨v, _, rfl⟩ := List.mem_map.mp member
    exact says_literal v
  exact ((opens.append inside).join closes).toSays.of_nil

mutual

theorem Fits.mono {more : List SupportClass} (subset : support ⊆ more) :
    {hint : TypeHint} → Fits support hint → Fits more hint
  | .any _, _ => trivial
  | .named .., h => SaysOnly.mono subset h
  | .literal .., _ => trivial
  | .applied .list _ _, h => AllFit.mono subset h
  | .applied .mapping _ _, h => AllFit.mono subset h
  | .applied .stream _ _, h => AllFit.mono subset h
  | .applied .producer _ _, h => AllFit.mono subset h
  | .applied (.generic _) _ _, h => ⟨h.1.mono subset, AllFit.mono subset h.2⟩

theorem AllFit.mono {more : List SupportClass} (subset : support ⊆ more) :
    {hints : List TypeHint} → AllFit support hints → AllFit more hints
  | [], _ => trivial
  | _ :: _, h => ⟨Fits.mono subset h.1, AllFit.mono subset h.2⟩

end

mutual

/-- The text of a hint names what the hint names. -/
theorem says_hint (style : TypeHint.Style) :
    (hint : TypeHint) → Fits support hint → Says support (hint.text style)
  | .any nullable, _ => says_orNull (SaysOnly.of_nil (by decide)) style nullable
  | .named name isModel nullable, fits => by
    refine says_orNull ?_ style nullable
    split
    · exact (says_quoted name).of_nil
    · exact fits
  | .literal members nullable, _ => says_orNull (says_literals members) style nullable
  | .applied container arguments nullable, fits => by
    refine says_orNull (says_container (fun name generic => ?_) ?_) style nullable
    · subst generic
      exact fits.1
    · have each : AllFit support arguments := by
        cases container with
        | generic => exact fits.2
        | _ => exact fits
      exact says_joined (JoinsOnly.of_nil (by decide)) (says_hints style arguments each)

theorem says_hints (style : TypeHint.Style) :
    (hints : List TypeHint) → AllFit support hints →
      ∀ s ∈ TypeHint.texts style hints, Says support s
  | [], _ => nofun
  | hint :: rest, fits => fun s member => by
    rcases List.mem_cons.mp member with rfl | member
    · exact says_hint style hint fits.1
    · exact says_hints style rest fits.2 s member

end

theorem Fits.withNull {hint : TypeHint} (h : Fits support hint) (nullable : Bool) :
    Fits support (hint.withNull nullable) := by
  cases hint with
  | applied container => cases container <;> exact h
  | _ => exact h

theorem fits_applied {container : Container} {hint : TypeHint} (h : Fits support hint)
    (named : ∀ name, container = .generic name → Says support name) (nullable : Bool) :
    Fits support (.applied container [hint] nullable) := by
  cases container with
  | generic name => exact ⟨named name rfl, h, trivial⟩
  | _ => exact ⟨h, trivial⟩

theorem fits_ofPrimitive (kind : Primitive) (nullable : Bool) :
    Fits [] (TypeHint.ofPrimitive kind nullable) := by
  cases kind with
  | any => trivial
  | string => exact (by decide : Says [] "str")
  | integer => exact (by decide : Says [] "int")
  | number => exact (by decide : Says [] "float")
  | boolean => exact (by decide : Says [] "bool")
  | binary => exact (by decide : Says [] "bytes")

/-- The hint of a shape names no support class. -/
theorem fits_ofShape (context : TypeHint.Context) (shape : Shape) :
    Fits [] (TypeHint.ofShape context shape) := by
  induction shape using Shape.parts_induction generalizing context with
  | step shape ih =>
  cases shape with
  | primitive kind nullable => exact fits_ofPrimitive kind nullable
  | array element nullable streamable =>
    refine fits_applied (ih element (by simp [Shape.parts]) _) (fun name generic => ?_) nullable
    exact absurd generic (TypeHint.arrayContainer_ne_generic context streamable name)
  | object name fields additional nullable =>
    unfold TypeHint.ofShape
    split
    next label _ => exact says_type label
    next =>
      have named (name : String) (h : Container.mapping = .generic name) : Says [] name := by
        cases h
      split
      next value =>
        have part : value ∈ (Shape.object name fields (some value) nullable).parts := by
          simp [Shape.parts, Shape.additional]
        exact fits_applied (ih value part _) named nullable
      next =>
        have any : Fits [] (.any false) := trivial
        exact fits_applied any named nullable
  | enumeration name members nullable =>
    unfold TypeHint.ofShape
    split
    next label _ => exact says_type label
    next => split <;> trivial
  | generic name argument nullable =>
    refine fits_applied (ih argument (by simp [Shape.parts]) _) (fun other generic => ?_) nullable
    rw [TypeHint.name_of_genericContainer generic]
    exact says_type name
  | unknown => trivial

end

end ApiBinding.Code
