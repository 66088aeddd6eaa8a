import ApiBinding.Proofs.OpenApi.Circle
import ApiBinding.Proofs.OpenApi.Pointer
import Mathlib.Data.List.Nodup

/-!
Chains of references, from a value to where its reference leads and on from there. Following one
always comes to an end, since a document and a value hold only so many references: in the first
value that is no reference, at a reference that leads nowhere, or at one that was followed before.
-/

namespace ApiBinding.OpenApi

open Value (withNamed itemsWithNamed entriesWithNamed)

/-- The text of the reference that an entry makes of the map it stands in. -/
def ownReference (key : Scalar) : Value → List String
  | .text reference => if key = .text referenceKey then [reference] else []
  | _ => []

mutual

/-- The texts of the references in a value. -/
def referenceTexts : Value → List String
  | .scalar _ | .set _ | .again _ => []
  | .list items => itemReferenceTexts items
  | .map entries => entryReferenceTexts entries
  | .pair first second => referenceTexts first ++ referenceTexts second
  | .knot _ body => referenceTexts body

def itemReferenceTexts : List Value → List String
  | [] => []
  | v :: rest => referenceTexts v ++ itemReferenceTexts rest

def entryReferenceTexts : List (Scalar × Value) → List String
  | [] => []
  | (key, v) :: rest => ownReference key v ++ referenceTexts v ++ entryReferenceTexts rest

end

theorem length_ownReference_le (key : Scalar) (v : Value) :
    (ownReference key v).length ≤ if key = .text referenceKey then 1 else 0 := by
  unfold ownReference
  split
  · split <;> simp
  · simp

mutual

theorem length_referenceTexts_le : (v : Value) → (referenceTexts v).length ≤ referenceCount v
  | .scalar s => by simp [referenceTexts]
  | .list items => length_itemReferenceTexts_le items
  | .map entries => length_entryReferenceTexts_le entries
  | .set members => by simp [referenceTexts]
  | .pair first second => by
    have := length_referenceTexts_le first
    have := length_referenceTexts_le second
    rw [referenceTexts, referenceCount, List.length_append]
    omega
  | .knot name body => length_referenceTexts_le body
  | .again name => by simp [referenceTexts]

theorem length_itemReferenceTexts_le :
    (items : List Value) → (itemReferenceTexts items).length ≤ itemReferenceCount items
  | [] => by simp [itemReferenceTexts]
  | v :: rest => by
    have := length_referenceTexts_le v
    have := length_itemReferenceTexts_le rest
    rw [itemReferenceTexts, itemReferenceCount, List.length_append]
    omega

theorem length_entryReferenceTexts_le : (entries : List (Scalar × Value)) →
    (entryReferenceTexts entries).length ≤ entryReferenceCount entries
  | [] => by simp [entryReferenceTexts]
  | (key, v) :: rest => by
    have := length_ownReference_le key v
    have := length_referenceTexts_le v
    have := length_entryReferenceTexts_le rest
    rw [entryReferenceTexts, entryReferenceCount, List.length_append, List.length_append]
    omega

end

section

variable (name : Nat) (body : Value)

/-- What stands for a name is a collection, so that no text takes the place of one. -/
theorem ownReference_withNamed (key : Scalar) (v : Value) :
    ownReference key (withNamed name (.knot name body) v) = ownReference key v := by
  cases v with
  | again other =>
    rw [withNamed]
    split <;> rfl
  | _ => rfl

mutual

/-- Whatever a value becomes where names are replaced, the references in it are its own and those of
what the name stands for. -/
theorem referenceTexts_withNamed : (v : Value) →
    referenceTexts (withNamed name (.knot name body) v) ⊆ referenceTexts v ++ referenceTexts body
  | .scalar s => by simp [withNamed, referenceTexts]
  | .list items => itemReferenceTexts_withNamed items
  | .map entries => entryReferenceTexts_withNamed entries
  | .set members => by simp [withNamed, referenceTexts]
  | .pair first second => by
    have := referenceTexts_withNamed first
    have := referenceTexts_withNamed second
    rw [withNamed, referenceTexts, referenceTexts]
    grind
  | .knot inner within => by
    rw [withNamed, referenceTexts, referenceTexts]
    split
    · exact List.subset_append_left ..
    · exact referenceTexts_withNamed within
  | .again other => by
    rw [withNamed]
    split
    · exact List.subset_append_right ..
    · exact List.nil_subset _

theorem itemReferenceTexts_withNamed : (items : List Value) →
    itemReferenceTexts (itemsWithNamed name (.knot name body) items) ⊆
      itemReferenceTexts items ++ referenceTexts body
  | [] => by simp [itemsWithNamed, itemReferenceTexts]
  | v :: rest => by
    have := referenceTexts_withNamed v
    have := itemReferenceTexts_withNamed rest
    rw [itemsWithNamed, itemReferenceTexts, itemReferenceTexts]
    grind

theorem entryReferenceTexts_withNamed : (entries : List (Scalar × Value)) →
    entryReferenceTexts (entriesWithNamed name (.knot name body) entries) ⊆
      entryReferenceTexts entries ++ referenceTexts body
  | [] => by simp [entriesWithNamed, entryReferenceTexts]
  | (key, v) :: rest => by
    have := referenceTexts_withNamed v
    have := entryReferenceTexts_withNamed rest
    rw [entriesWithNamed, entryReferenceTexts, entryReferenceTexts, ownReference_withNamed]
    grind

end

end

section

variable {document v part target last place : Value} {reference : String}
  {passed seen : List String} {outcome : Except Failure Value}

theorem referenceTexts_opened (v : Value) : referenceTexts v.opened ⊆ referenceTexts v := by
  cases v with
  | knot name body =>
    refine List.Subset.trans (referenceTexts_withNamed name body body) ?_
    rw [referenceTexts]
    simp
  | _ => exact List.Subset.refl _

theorem entry_of_get? {key : Scalar} {entries : List (Scalar × Value)}
    (h : Entries.get? Scalar.same key entries = some part) :
    ∃ k, k.same key = true ∧ (k, part) ∈ entries := by
  induction entries with
  | nil => cases h
  | cons entry entries ih =>
    rw [Entries.get?] at h
    split at h
    next same =>
      obtain rfl := Option.some.inj h
      exact ⟨entry.1, same, List.mem_cons_self⟩
    next =>
      obtain ⟨k, same, member⟩ := ih h
      exact ⟨k, same, List.mem_cons_of_mem _ member⟩

theorem entryReferenceTexts_of_mem {key : Scalar} {entries : List (Scalar × Value)}
    (h : (key, part) ∈ entries) :
    ownReference key part ++ referenceTexts part ⊆ entryReferenceTexts entries := by
  induction entries with
  | nil => cases h
  | cons entry entries ih =>
    obtain ⟨k, v⟩ := entry
    rw [entryReferenceTexts]
    rcases List.mem_cons.mp h with same | h
    · cases same
      exact List.subset_append_left ..
    · exact List.subset_append_of_subset_right _ (ih h)

theorem referenceTexts_of_get? {key : String} (h : v.get? key = some part) :
    ownReference (.text key) part ++ referenceTexts part ⊆ referenceTexts v := by
  refine List.Subset.trans ?_ (referenceTexts_opened v)
  unfold Value.get? at h
  split at h
  next entries opened =>
    obtain ⟨k, same, member⟩ := entry_of_get? h
    obtain rfl := Scalar.same_text_iff.mp same
    rw [opened]
    exact entryReferenceTexts_of_mem member
  next => cases h

theorem mem_referenceTexts (refers : v.get? referenceKey = some (.text reference)) :
    reference ∈ referenceTexts v :=
  referenceTexts_of_get? refers (by simp [ownReference])

theorem referenceTexts_of_keysLead {keys : List String} (leads : KeysLead document keys target) :
    referenceTexts target ⊆ referenceTexts document := by
  induction leads with
  | here => exact List.Subset.refl _
  | into found _ ih =>
    have inner := List.Subset.trans (List.subset_append_right ..) (referenceTexts_of_get? found)
    exact List.Subset.trans ih inner

/-- Whether a reference is one into the document and leads to a value there. -/
def Locates (document : Value) (reference : String) (target : Value) : Prop :=
  ∃ fragment, reference = "#" ++ fragment ∧ KeysLead document (keysOf fragment) target

theorem referenced_eq_ok : referenced document reference = .ok target ↔
    Locates document reference target := by
  unfold referenced
  split
  next fragment rest =>
    obtain rfl := Text.eq_append_of_rest? rest
    rw [atFragment_eq_ok]
    exact ⟨fun leads => ⟨fragment, rfl, leads⟩, fun ⟨other, same, leads⟩ =>
      String.append_right_inj _ |>.mp same ▸ leads⟩
  next none =>
    refine ⟨nofun, ?_⟩
    rintro ⟨fragment, rfl, _⟩
    rw [Text.rest?_append] at none
    cases none

theorem Locates.unique {target' : Value} (first : Locates document reference target)
    (second : Locates document reference target') : target = target' := by
  have same := referenced_eq_ok.mpr first
  rw [referenced_eq_ok.mpr second] at same
  exact (Except.ok.inj same).symm

/-- Whether references lead from a value to a value, one after another, by the given texts. -/
inductive Chain (document : Value) : Value → List String → Value → Prop
  | here (v : Value) : Chain document v [] v
  | on {v target last : Value} {reference : String} {passed : List String}
      (refers : v.get? referenceKey = some (.text reference))
      (located : Locates document reference target)
      (further : Chain document target passed last) :
      Chain document v (reference :: passed) last

/-- How following references ends at a place, after it has passed the given ones: at no reference,
at one that is no text, at one that was passed before, or at one that leads nowhere. -/
inductive Ends (document : Value) (passed : List String) (place : Value) :
    Except Failure Value → Prop
  | plain (plain : place.get? referenceKey = none) : Ends document passed place (.ok place)
  | kind {other : Value} (found : place.get? referenceKey = some other)
      (odd : ∀ reference, other ≠ .text reference) :
      Ends document passed place (.error (.description .referenceKind))
  | circular {reference : String} (refers : place.get? referenceKey = some (.text reference))
      (before : reference ∈ passed) :
      Ends document passed place (.error (.description (.circularReference reference)))
  | foreign {reference : String} (refers : place.get? referenceKey = some (.text reference))
      (fresh : reference ∉ passed) (outside : ∀ fragment, reference ≠ "#" ++ fragment) :
      Ends document passed place (.error (.description (.foreignReference reference)))
  | dangling {fragment : String}
      (refers : place.get? referenceKey = some (.text ("#" ++ fragment)))
      (fresh : "#" ++ fragment ∉ passed)
      (nowhere : ∀ target, ¬KeysLead document (keysOf fragment) target) :
      Ends document passed place (.error (.description (.danglingPointer fragment)))

theorem Chain.snoc (chain : Chain document v passed place)
    (refers : place.get? referenceKey = some (.text reference))
    (located : Locates document reference target) :
    Chain document v (passed ++ [reference]) target := by
  induction chain with
  | here => exact .on refers located (.here _)
  | on first leads _ ih => exact .on first leads (ih refers)

/-- A reference that cannot be followed ends the chain with the failure to follow it. -/
theorem ends_of_failed (refers : place.get? referenceKey = some (.text reference))
    (fresh : reference ∉ passed) {failure : Failure}
    (failed : referenced document reference = .error failure) :
    Ends document passed place (.error failure) := by
  unfold referenced at failed
  split at failed
  next fragment rest =>
    obtain rfl := Text.eq_append_of_rest? rest
    have nowhere : ∀ target, ¬KeysLead document (keysOf fragment) target := by
      intro target leads
      rw [atFragment_eq_ok.mpr leads] at failed
      cases failed
    rw [atFragment_dangling nowhere] at failed
    cases failed
    exact .dangling refers fresh nowhere
  next none =>
    cases failed
    refine .foreign refers fresh fun fragment same => ?_
    rw [same, Text.rest?_append] at none
    cases none

/-- Following references goes along a chain of different ones, of which there are only so many, and
ends where the chain does. -/
theorem dereferenceFrom_ends {listed : List String} (inside : referenceTexts document ⊆ listed)
    {fuel : Nat} {start : Value} (here : referenceTexts v ⊆ listed) (distinct : seen.Nodup)
    (sofar : Chain document start seen.reverse v) (enough : unseen listed seen < fuel) :
    ∃ passed place, Chain document start passed place ∧ passed.Nodup ∧
      Ends document passed place (dereferenceFrom document fuel seen v) := by
  -- Each link uses up a listed reference that was not seen, and there is more fuel than those.
  induction fuel generalizing seen v with
  | zero => exact absurd enough (Nat.not_lt_zero _)
  | succ fuel ih =>
    have stop {outcome : Except Failure Value} (ends : Ends document seen.reverse v outcome) :
        ∃ passed place, Chain document start passed place ∧ passed.Nodup ∧
          Ends document passed place outcome :=
      ⟨seen.reverse, v, sofar, List.nodup_reverse.mpr distinct, ends⟩
    rw [dereferenceFrom]
    split
    next plain => exact stop (.plain plain)
    next reference refers =>
      split
      next before => exact stop (.circular refers (by simpa using before))
      next fresh =>
        have fresh : reference ∉ seen := by simpa using fresh
        cases located : referenced document reference with
        | error failure =>
          rw [error_bind]
          exact stop (ends_of_failed refers (by simpa using fresh) located)
        | ok target =>
          have leads := referenced_eq_ok.mp located
          rw [ok_bind]
          refine ih ?_ (List.nodup_cons.mpr ⟨fresh, distinct⟩) ?_ ?_
          · obtain ⟨_, _, leads⟩ := leads
            exact List.Subset.trans (referenceTexts_of_keysLead leads) inside
          · rw [List.reverse_cons]
            exact sofar.snoc refers leads
          · have := unseen_cons_lt (here (mem_referenceTexts refers)) fresh
            omega
    next other odd found => exact stop (.kind found odd)

theorem dereference_ends (document v : Value) : ∃ passed place, Chain document v passed place ∧
    passed.Nodup ∧ Ends document passed place (dereference document v) := by
  have few : (referenceTexts document ++ referenceTexts v).length ≤
      referenceCount document + referenceCount v := by
    rw [List.length_append]
    exact Nat.add_le_add (length_referenceTexts_le document) (length_referenceTexts_le v)
  exact dereferenceFrom_ends (List.subset_append_left ..) (List.subset_append_right ..)
    List.nodup_nil (.here v) (Nat.lt_succ_of_le (unseen_le.trans few))

/-- Nothing but a repeated reference leads on from where following ends. -/
theorem Ends.stops {rest : List String} (ends : Ends document passed place outcome)
    (further : Chain document place rest last) (distinct : (passed ++ rest).Nodup) : rest = [] := by
  cases further with
  | here => rfl
  | on refers located further =>
    exfalso
    cases ends with
    | plain plain =>
      rw [plain] at refers
      cases refers
    | kind found odd =>
      rw [found] at refers
      exact odd _ (Option.some.inj refers)
    | circular again before =>
      rw [again] at refers
      cases refers
      rw [List.nodup_append] at distinct
      exact distinct.2.2 _ before _ List.mem_cons_self rfl
    | foreign again fresh outside =>
      rw [again] at refers
      cases refers
      obtain ⟨fragment, same, _⟩ := located
      exact outside fragment same
    | dangling again fresh nowhere =>
      rw [again] at refers
      cases refers
      obtain ⟨fragment, same, leads⟩ := located
      obtain rfl := String.append_right_inj _ |>.mp same
      exact nowhere _ leads

/-- The entry at a place and what was passed before it decide how following ends there. -/
theorem Ends.unique {outcome' : Except Failure Value} (first : Ends document passed place outcome)
    (second : Ends document passed place outcome') : outcome = outcome' := by
  cases first <;> cases second <;> grind [String.append_right_inj]

/-- Of two chains from one value, one goes on where the other stops. -/
theorem Chain.compare {passed' : List String} {place' : Value}
    (first : Chain document v passed place) (second : Chain document v passed' place') :
    (∃ rest, passed' = passed ++ rest ∧ Chain document place rest place') ∨
      ∃ rest, passed = passed' ++ rest ∧ Chain document place' rest place := by
  induction first generalizing passed' with
  | here => exact .inl ⟨passed', rfl, second⟩
  | on refers located further ih =>
    cases second with
    | here => exact .inr ⟨_, rfl, .on refers located further⟩
    | on refers' located' further' =>
      rw [refers] at refers'
      cases refers'
      obtain rfl := located.unique located'
      rcases ih further' with ⟨rest, rfl, onward⟩ | ⟨rest, rfl, onward⟩
      · exact .inl ⟨rest, rfl, onward⟩
      · exact .inr ⟨rest, rfl, onward⟩

/-- What references lead to is what they come to along the one chain on which none is repeated. -/
theorem dereference_eq_iff : dereference document v = outcome ↔ ∃ passed place,
    Chain document v passed place ∧ passed.Nodup ∧ Ends document passed place outcome := by
  obtain ⟨passed, place, chain, distinct, ends⟩ := dereference_ends document v
  refine ⟨fun same => ⟨passed, place, chain, distinct, same ▸ ends⟩, ?_⟩
  rintro ⟨passed', place', chain', distinct', ends'⟩
  rcases chain.compare chain' with ⟨rest, rfl, onward⟩ | ⟨rest, rfl, onward⟩
  · obtain rfl := ends.stops onward distinct'
    cases onward
    rw [List.append_nil] at ends'
    exact ends.unique ends'
  · obtain rfl := ends'.stops onward distinct
    cases onward
    rw [List.append_nil] at ends
    exact ends.unique ends'

theorem Chain.after (chain : Chain document v passed last) (h : reference ∈ passed) :
    ∃ target rest, Locates document reference target ∧ Chain document target rest last ∧
      rest.length < passed.length := by
  induction chain with
  | here => cases h
  | @on v target last first passed refers located further ih =>
    rcases List.mem_cons.mp h with rfl | h
    · exact ⟨target, passed, located, further, Nat.lt_succ_self _⟩
    · obtain ⟨target, rest, leads, onward, shorter⟩ := ih h
      exact ⟨target, rest, leads, onward, Nat.lt_succ_of_lt shorter⟩

/-- A chain that ends in a value without a reference passes none twice, since from where it leads it
would go on as it did before. -/
theorem Chain.nodup (chain : Chain document v passed last)
    (plain : last.get? referenceKey = none) : passed.Nodup := by
  induction chain with
  | here => exact List.nodup_nil
  | on refers located further ih =>
    refine List.nodup_cons.mpr ⟨fun again => ?_, ih plain⟩
    obtain ⟨target, rest, leads, onward, shorter⟩ := further.after again
    obtain rfl := located.unique leads
    rcases onward.compare further with ⟨more, rfl, beyond⟩ | ⟨more, rfl, _⟩
    · cases beyond with
      | here => simp at shorter
      | on refers => simp [plain] at refers
    · rw [List.length_append] at shorter
      omega

/-- Following references from a value always ends, with a value or with what is wrong with the
document. It gives the first value on the chain that is no reference, and it fails for a circle
exactly if the chain, along references that are texts and lead somewhere, comes back to one that was
followed before. -/
theorem references_followed (document v : Value) :
    ((∃ last, dereference document v = .ok last) ∨
      ∃ problem, dereference document v = .error (.description problem)) ∧
    (∀ last, dereference document v = .ok last ↔
      ∃ passed, Chain document v passed last ∧ last.get? referenceKey = none) ∧
    ∀ reference, dereference document v = .error (.description (.circularReference reference)) ↔
      ∃ passed place, Chain document v passed place ∧ passed.Nodup ∧
        place.get? referenceKey = some (.text reference) ∧ reference ∈ passed := by
  refine ⟨?_, fun last => ⟨fun same => ?_, ?_⟩, fun reference => ⟨fun same => ?_, ?_⟩⟩
  · obtain ⟨passed, place, _, _, ends⟩ := dereference_ends document v
    generalize dereference document v = outcome at ends
    cases ends with
    | plain => exact .inl ⟨_, rfl⟩
    | _ => exact .inr ⟨_, rfl⟩
  · obtain ⟨passed, place, chain, _, ends⟩ := dereference_eq_iff.mp same
    cases ends with
    | plain plain => exact ⟨passed, chain, plain⟩
  · rintro ⟨passed, chain, plain⟩
    exact dereference_eq_iff.mpr ⟨passed, last, chain, chain.nodup plain, .plain plain⟩
  · obtain ⟨passed, place, chain, distinct, ends⟩ := dereference_eq_iff.mp same
    cases ends with
    | circular refers before => exact ⟨passed, place, chain, distinct, refers, before⟩
  · rintro ⟨passed, place, chain, distinct, refers, before⟩
    exact dereference_eq_iff.mpr ⟨passed, place, chain, distinct, .circular refers before⟩

/-- Two spellings of one pointer are two references, so that the circle is closed by the second use
of one of them. -/
example : dereference (.map [(.text "a", .map [(.text referenceKey, .text "#a")])])
    (.map [(.text referenceKey, .text "#/a")]) =
      .error (.description (.circularReference "#a")) := by
  rfl

end

end ApiBinding.OpenApi
