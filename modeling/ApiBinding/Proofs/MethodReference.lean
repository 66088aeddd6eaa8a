import ApiBinding.Proofs.Identifier.Free
import ApiBinding.Proofs.Method.ResponseTable
import ApiBinding.Proofs.Text.Blank

/-!
The texts by which settings name methods: what is read from them, and that an operation is reached by
its class with the name of its method as well as by its tag with its own name.
-/

namespace ApiBinding

namespace Identifier

variable {role : Role} {c : Char}

theorem isWordChar_or_underscore (h : isNameChar role c = true) : isWordChar c = true ∨ c = '_' := by
  have small (h : isSmall c = true) : isWordChar c = true ∨ c = '_' := by
    rw [isSmall, Bool.or_eq_true, beq_iff_eq] at h
    rw [isWordChar, isAlphanum_eq, Bool.or_assoc, Bool.or_eq_true]
    exact h.imp_left .inr
  cases role with
  | type => exact .inl h
  | parameter => exact small h
  | method => exact small h

theorem isBlank_of_isNameChar (h : isNameChar role c = true) : Text.isBlank c = false := by
  by_contra blank
  rw [Bool.not_eq_false] at blank
  rcases isWordChar_or_underscore h with word | rfl
  · rw [isWordChar_of_isBlank blank] at word
    cases word
  · exact absurd blank (by decide)

theorem isNameChar_ne_point (h : isNameChar role c = true) : c ≠ '.' := by
  rintro rfl
  rcases isWordChar_or_underscore h with word | underscore
  · exact absurd word (by decide)
  · exact absurd underscore (by decide)

theorem singles_of_isBlank (h : Text.isBlank c = true) (cs : List Char) :
    singles (c :: cs) = c :: singles cs := by
  have plain : c ≠ Text.mark := by
    rintro rfl
    exact absurd h (by decide)
  cases cs with
  | nil => rfl
  | cons d cs => simp [singles, Text.units, plain]

/-- The name of a type does not depend on blanks in front of what it is made from. -/
theorem ofRaw_type_dropWhile (cs : List Char) :
    ofRaw .type (String.ofList (cs.dropWhile Text.isBlank)) = ofRaw .type (String.ofList cs) := by
  induction cs with
  | nil => rfl
  | cons c cs ih =>
    rw [List.dropWhile_cons]
    split
    next blank =>
      have same : pascal (singles (c :: cs)) = pascal (singles cs) := by
        have nothing : ([] : List Char).any (fun c => !isWordChar c) = false := rfl
        have bare : Text.pieces (fun c => !isWordChar c) (c :: singles cs) =
            [] :: Text.pieces (fun c => !isWordChar c) (singles cs) :=
          Text.pieces_word nothing (by rw [isWordChar_of_isBlank blank, Bool.not_false]) _
        rw [singles_of_isBlank blank, pascal, bare]
        rfl
      rw [ih]
      simp only [ofRaw, String.toList_ofList, styled, same]
    next => rfl

end Identifier

namespace MethodReference

open Identifier (IsFree isFree_ofRaw ofRaw ofRaw_of_free)
open Text (isBlank trim)

/-- A reference is read from a text whose last point, blanks around the text apart, stands between a
client and a method. -/
theorem parse_eq_ok {s : String} {reference : MethodReference} :
    parse s = .ok reference ↔
      trim s.toList = reference.text.toList ∧ '.' ∉ reference.method.toList ∧
        reference.client ≠ "" ∧ reference.method ≠ "" := by
  have text : reference.text.toList = reference.client.toList ++ '.' :: reference.method.toList := by
    simp [MethodReference.text]
  rw [text]
  unfold parse
  constructor
  · intro read
    split at read
    next client method found =>
      split at read
      next => cases read
      next filled =>
        cases read
        obtain ⟨whole, free⟩ := Text.splitLast?_eq_some.mp found
        rw [not_or] at filled
        simpa [whole, free] using filled
    next => cases read
  · rintro ⟨whole, free, client, method⟩
    rw [whole, Text.splitLast?_append free]
    simp [client, method]

/-- What is written for a reference that was read is read as the same. -/
theorem parse_text {s : String} {reference : MethodReference} (read : parse s = .ok reference) :
    parse reference.text = .ok reference := by
  obtain ⟨whole, parts⟩ := parse_eq_ok.mp read
  refine parse_eq_ok.mpr ⟨?_, parts⟩
  rw [← whole, Text.trim_trim]

/-- Whether a text is read as a reference that lists what has the names, among others or alone. -/
def Reaches (text : String) (names : Operation.Names) : Prop :=
  ∃ reference, parse text = .ok reference ∧
    ∀ references, reference ∈ references → lists references names.pairs = true

/-- Whether a name can stand in a reference as it is. -/
structure IsPlain (name : String) : Prop where
  filled : name ≠ ""
  undivided : '.' ∉ name.toList
  starts : ∀ c ∈ name.toList.head?, isBlank c = false
  ends : ∀ c ∈ name.toList.getLast?, isBlank c = false

variable {operation : Operation} {settings : Settings} {names : Operation.Names} {raw : String}

theorem isPlain_of_isFree {role : Identifier.Role} {name : String} (free : IsFree role name) :
    IsPlain name := by
  have chars := List.all_eq_true.mp free.chars
  refine ⟨?_, ?_, ?_, ?_⟩
  · rintro rfl
    cases free.starts
  · intro point
    exact Identifier.isNameChar_ne_point (chars '.' point) rfl
  · intro c first
    exact Identifier.isBlank_of_isNameChar (chars c (List.mem_of_mem_head? first))
  · intro c last
    exact Identifier.isBlank_of_isNameChar (chars c (List.mem_of_mem_getLast? last))

theorem IsPlain.exists_not_isBlank {name : String} (plain : IsPlain name) :
    ∃ c ∈ name.toList, isBlank c = false := by
  obtain ⟨c, cs, text⟩ := List.exists_cons_of_ne_nil
    (fun empty => plain.filled (String.toList_eq_nil_iff.mp empty))
  exact ⟨c, by simp [text], plain.starts c (by rw [text]; rfl)⟩

theorem IsPlain.dropWhile {name : String} (plain : IsPlain name) :
    String.ofList (name.toList.dropWhile isBlank) = name := by
  rw [Text.dropWhile_of_head plain.starts, String.ofList_toList]

/-- A client, with any blanks in front of it, and a plain method are read as they were joined. -/
theorem parse_joined {client method : String} (filled : ∃ c ∈ client.toList, isBlank c = false)
    (plain : IsPlain method) :
    parse (client ++ "." ++ method) =
      .ok ⟨String.ofList (client.toList.dropWhile isBlank), method⟩ := by
  have text : (client ++ "." ++ method).toList = client.toList ++ '.' :: method.toList := by simp
  have ends : ∀ c ∈ ('.' :: method.toList).getLast?, isBlank c = false := by
    intro c last
    have more : method.toList ≠ [] := fun empty =>
      plain.filled (String.toList_eq_nil_iff.mp empty)
    rw [List.getLast?_cons_of_ne_nil more] at last
    exact plain.ends c last
  have whole := Text.trim_append filled (List.cons_ne_nil '.' method.toList) ends
  refine parse_eq_ok.mpr ⟨?_, plain.undivided, ?_, plain.filled⟩
  · rw [text, whole]
    simp [MethodReference.text]
  · intro empty
    obtain ⟨c, inside, other⟩ := filled
    have blank := List.dropWhile_eq_nil_iff.mp (by simpa using empty) c inside
    simp [other] at blank

theorem reaches_joined (named : operation.names settings = .ok names)
    (raw_eq : operation.rawName = .ok raw) {client method : String}
    (filled : ∃ c ∈ client.toList, isBlank c = false) (plain : IsPlain method)
    (same : ofRaw .method method = ofRaw .method raw)
    (known : ofRaw .type client = settings.clientName operation.tag ∨
      (operation.tag ≠ "" ∧ ofRaw .type client = ofRaw .type operation.tag)) :
    Reaches (client ++ "." ++ method) names := by
  have bare := Identifier.ofRaw_type_dropWhile client.toList
  rw [String.ofList_toList] at bare
  rw [← bare] at known
  refine ⟨_, parse_joined filled plain, fun references member => ?_⟩
  refine (Operation.lists_iff named).mpr ⟨_, member, raw, raw_eq, ?_, ?_⟩
  · dsimp only [identifiers]
    exact same
  · dsimp only [identifiers]
    exact known

/-- An operation is reached by its class and the name of its method; and, whatever the classes are
called, by its tag and its own name, if the tag is not blank and the name plain. References that were
read are read from their texts again. -/
theorem operations_reached :
    (∀ (settings : Settings) (operation : Operation), (∃ s, operation.name = .text s) →
      ∃ raw names, operation.rawName = .ok raw ∧ operation.names settings = .ok names ∧
        Reaches (settings.clientName operation.tag ++ "." ++ names.method) names ∧
        ((∃ c ∈ operation.tag.toList, isBlank c = false) → IsPlain raw →
          Reaches (operation.tag ++ "." ++ raw) names)) ∧
    ∀ s reference, parse s = .ok reference → parse reference.text = .ok reference := by
  refine ⟨fun settings operation titled => ?_, fun s reference read => parse_text read⟩
  obtain ⟨raw, raw_eq⟩ : ∃ raw, operation.rawName = .ok raw := by
    obtain ⟨s, text⟩ := titled
    unfold Operation.rawName
    split
    · exact ⟨s, by rw [text]; rfl⟩
    · exact ⟨_, rfl⟩
  have named : operation.names settings = .ok ⟨raw, ofRaw .method raw,
      settings.clientName operation.tag,
      (operation.clientNames settings).map fun client => (client, ofRaw .method raw)⟩ := by
    rw [Operation.names, raw_eq]
    rfl
  have class_free : IsFree .type (settings.clientName operation.tag) := by
    unfold Settings.clientName Settings.clientNameFor
    exact isFree_ofRaw .type _
  have method_free : IsFree .method (ofRaw .method raw) := isFree_ofRaw .method raw
  refine ⟨raw, _, raw_eq, named, ?_, fun filled plain => ?_⟩
  · exact reaches_joined named raw_eq (isPlain_of_isFree class_free).exists_not_isBlank
      (isPlain_of_isFree method_free) (ofRaw_of_free method_free) (.inl (ofRaw_of_free class_free))
  · have tagged : operation.tag ≠ "" := by
      rintro empty
      obtain ⟨c, inside, _⟩ := filled
      simp [empty] at inside
    exact reaches_joined named raw_eq filled plain rfl (.inr ⟨tagged, rfl⟩)

/-- A tag that starts with a blank and has a point in it: the last point of the text counts. -/
theorem operations_reached_dotted :
    ∃ names, (Operation.answering " api.Bar" "GetPeople" []).names .standard = .ok names ∧
      Reaches "ApiBarClient.get_people" names ∧ Reaches " api.Bar.GetPeople" names ∧
      parse "api.Bar.GetPeople" = .ok ⟨"api.Bar", "GetPeople"⟩ := by
  obtain ⟨raw, names, raw_eq, named, by_class, by_tag⟩ := operations_reached.1 .standard
    (.answering " api.Bar" "GetPeople" []) ⟨"GetPeople", rfl⟩
  obtain rfl : "GetPeople" = raw := Except.ok.inj raw_eq
  have plain : IsPlain "GetPeople" := by
    refine ⟨by decide, by decide, ?_, ?_⟩ <;> (rintro _ ⟨⟩; decide)
  have class_text : Settings.clientName .standard " api.Bar" ++ "." ++ names.method =
      "ApiBarClient.get_people" := by
    cases named
    decide +kernel
  have read : parse " api.Bar.GetPeople" = .ok ⟨"api.Bar", "GetPeople"⟩ := by decide +kernel
  refine ⟨names, named, ?_, ?_, operations_reached.2 _ _ read⟩
  · rw [← class_text]
    exact by_class
  · exact by_tag ⟨'a', by decide, by decide⟩ plain

end MethodReference

end ApiBinding
