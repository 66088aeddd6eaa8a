import ApiBinding.Proofs.OpenApi.Depth
import ApiBinding.Proofs.OpenApi.Reference
import ApiBinding.Proofs.Value
import Mathlib.Logic.Relation

/-!
Circles of references without names: the only reason for which the conversion of a schema may never
end. Without one, every step leaves fewer names to enter, fewer references to follow, or a smaller
schema.
-/

namespace ApiBinding.OpenApi

open Relation (ReflTransGen TransGen)

/-- Whether the conversion of a schema goes on to a part of it. -/
def Opens (schema part : Value) : Prop :=
  schema.isMap = true ∧ schema.get referenceKey = .null ∧ Part schema part

/-- Whether the conversion of a schema may come upon a reference, before it follows another. -/
def Refers (schema : Value) (reference : String) : Prop :=
  ∃ place, ReflTransGen Opens schema place ∧ place.get referenceKey = .text reference

/-- Whether one reference may lead to another and neither of them names a schema. -/
def Leads (document : Value) (reference next : String) : Prop :=
  namedSchema? reference = none ∧ namedSchema? next = none ∧
    ∃ target, referenced document reference = .ok target ∧ Refers target next

/-- A step from a schema to another one, to which its conversion may go on. -/
inductive Step (document schema : Value) : Value → Prop
  | part {part : Value} (opens : Opens schema part) : Step document schema part
  | target {reference : String} {target : Value}
      (refers : schema.get referenceKey = .text reference)
      (found : referenced document reference = .ok target) : Step document schema target

/-- Whether the conversion of a schema may come upon a reference that leads back to itself, by way
of references that name no schema. -/
def MeetsCircle (document schema : Value) : Prop :=
  ∃ place reference, ReflTransGen (Step document) schema place ∧
    place.get referenceKey = .text reference ∧ TransGen (Leads document) reference reference

section

variable {document schema part : Value}

theorem isMap_of_get? {key : String} (h : schema.get? key = some part) : schema.isMap = true := by
  unfold Value.get? at h
  unfold Value.isMap
  split at h
  next => rfl
  next => cases h

/-- What a conversion needs to know of a part of a schema, or of another one. -/
structure Inside (part schema : Value) : Prop where
  finite : part.isFinite = true
  size_lt : part.size < schema.size
  texts_subset : part.isMap = true → part.texts ⊆ schema.texts

theorem inside_of_within {whole : Value} (finite : schema.isFinite = true)
    (held : Value.Within whole schema)
    (h : (∃ s, part = .scalar s) ∨ Value.Within part whole) : Inside part schema := by
  rcases h with ⟨s, rfl⟩ | h
  · have := whole.size_pos
    have := held.size_lt
    exact ⟨rfl, by rw [Value.size]; omega, nofun⟩
  · have h := h.trans held
    exact ⟨h.finite finite, h.size_lt, fun _ => h.texts_subset⟩

theorem Part.inside (finite : schema.isFinite = true) (h : Part schema part) :
    Inside part schema := by
  have held {key : String} (filled : schema.get key ≠ .null) :
      Value.Within (schema.get key) schema := Value.within_of_get? finite (get?_of_get filled)
  cases h with
  | @element key elements _ _ found member =>
    have filled : schema.get key ≠ .null := by
      intro null
      rw [null] at found
      cases found
    exact inside_of_within finite (held filled)
      (Value.within_of_elements ((held filled).finite finite) found member)
  | first found =>
    have filled : schema.get "allOf" ≠ .null := by
      intro null
      rw [null] at found
      cases found
    exact inside_of_within finite (held filled)
      (Value.within_of_first ((held filled).finite finite) found)
  | @property entries entry found member =>
    unfold propertiesOf at found
    split at found
    next =>
      cases found
      cases member
    next properties here =>
      have held := Value.within_of_get? finite here
      exact inside_of_within finite held
        (.inr (Value.within_of_entries (held.finite finite) found member))
  | under _ found =>
    have held := Value.within_of_get? finite found
    exact ⟨held.finite finite, held.size_lt, fun _ => held.texts_subset⟩

theorem follow?_finite {keys : List String} {target : Value} (finite : document.isFinite = true)
    (h : follow? document keys = some target) :
    target = document ∨ Value.Within target document := by
  induction keys generalizing document with
  | nil => exact .inl (Option.some.inj h).symm
  | cons key keys ih =>
    obtain ⟨inner, found, h⟩ := Option.bind_eq_some_iff.mp h
    have held := Value.within_of_get? finite found
    rcases ih (held.finite finite) h with rfl | deeper
    · exact .inr held
    · exact .inr (deeper.trans held)

theorem referenced_finite {reference : String} {target : Value} (finite : document.isFinite = true)
    (h : referenced document reference = .ok target) :
    target = document ∨ Value.Within target document := by
  unfold referenced at h
  split at h
  next =>
    unfold atFragment at h
    split at h
    next here =>
      cases h
      exact follow?_finite finite here
    next => cases h
  next => cases h

end


/-- How many of the listed were not seen, each as often as it is listed. -/
def unseen {α : Type} [DecidableEq α] (listed seen : List α) : Nat :=
  listed.countP fun a => decide (a ∉ seen)

section

variable {α : Type} [DecidableEq α] {a : α} {listed seen : List α}

theorem unseen_le : unseen listed seen ≤ listed.length := List.countP_le_length

theorem unseen_cons_le : unseen listed (a :: seen) ≤ unseen listed seen := by
  refine List.countP_mono_left fun b _ fresh => ?_
  simp only [decide_eq_true_eq, List.mem_cons, not_or] at fresh ⊢
  exact fresh.2

theorem unseen_cons_lt (h : a ∈ listed) (fresh : a ∉ seen) :
    unseen listed (a :: seen) < unseen listed seen := by
  induction listed with
  | nil => cases h
  | cons b listed ih =>
    have fewer : unseen listed (a :: seen) ≤ unseen listed seen := unseen_cons_le
    rw [unseen, unseen, List.countP_cons, List.countP_cons]
    change unseen listed (a :: seen) + _ < unseen listed seen + _
    rcases List.mem_cons.mp h with rfl | h
    · simp only [List.mem_cons, true_or, not_true_eq_false, decide_false, fresh, not_false_eq_true,
        decide_true, if_true, Bool.false_eq_true, if_false]
      omega
    · have less := ih h
      by_cases hb : b ∈ seen
      · simp [hb, less]
      · by_cases same : b = a
        · simp only [same, List.mem_cons, true_or, not_true_eq_false, decide_false, fresh,
            not_false_eq_true, decide_true, if_true, Bool.false_eq_true, if_false]
          omega
        · simp [hb, same, less]

end

section

variable (document root : Value)

/-- All texts in which the conversion of a schema may find references. -/
def allTexts : List String := document.texts ++ root.texts

/-- The names of all schemas that are referred to by name. -/
def allNames : List String := (allTexts document root).filterMap namedSchema?

/-- What is left to do for a schema: below any name that was not entered there may be any reference
that was not passed, and below any of these a whole schema. -/
def workLeft (pending : List String) (trail : Trail) (schema : Value) : Nat :=
  let names := unseen (allNames document root) pending
  let references := unseen ((allTexts document root).map .reference) trail
  (names * ((allTexts document root).length + 1) + references) *
    (document.size + root.size + 1) + schema.size

theorem mul_add_lt_mul_add {n m i j bound : Nat} (less : n < m) (small : i < bound) :
    n * bound + i < m * bound + j := by
  have := Nat.mul_le_mul_right bound (Nat.succ_le_of_lt less)
  rw [Nat.succ_mul] at this
  omega

/-- What holds of every schema on the way of a conversion, while the given names are pending and the
given landmarks were passed. -/
structure OnTheWay (pending : List String) (trail : Trail) (schema : Value) : Prop where
  finite : schema.isFinite = true
  size_le : schema.size ≤ document.size + root.size
  texts_subset : schema.isMap = true → schema.texts ⊆ allTexts document root
  reached : ReflTransGen (Step document) root schema
  trailed : ∀ passed, .reference passed ∈ trail → ∀ reference, Refers schema reference →
    namedSchema? reference = none → TransGen (Leads document) passed reference

variable {document root} {pending : List String} {trail : Trail} {schema part target : Value}
  {reference name : String}

theorem OnTheWay.start (finite : root.isFinite = true) :
    OnTheWay document root pending [] root where
  finite := finite
  size_le := Nat.le_add_left ..
  texts_subset _ := List.subset_append_right ..
  reached := .refl
  trailed _ h := nomatch h

theorem OnTheWay.descend (way : OnTheWay document root pending trail schema)
    (opens : Opens schema part) :
    OnTheWay document root pending trail part ∧
      workLeft document root pending trail part < workLeft document root pending trail schema := by
  have inside := opens.2.2.inside way.finite
  refine ⟨⟨inside.finite, ?_, fun isMap => ?_, way.reached.tail (.part opens), ?_⟩, ?_⟩
  · exact Nat.le_trans (Nat.le_of_lt inside.size_lt) way.size_le
  · exact List.Subset.trans (inside.texts_subset isMap) (way.texts_subset opens.1)
  · rintro passed member reference ⟨place, opened, refers⟩ unnamed
    exact way.trailed passed member reference ⟨place, .head opens opened, refers⟩ unnamed
  · exact Nat.add_lt_add_left inside.size_lt _

theorem OnTheWay.mem_allTexts (way : OnTheWay document root pending trail schema)
    (refers : schema.get referenceKey = .text reference) :
    reference ∈ allTexts document root := by
  have found : schema.get? referenceKey = some (.text reference) := by
    rw [← refers]
    exact get?_of_get (by rw [refers]; nofun)
  refine way.texts_subset (isMap_of_get? found) ?_
  refine (Value.within_of_get? way.finite found).texts_subset ?_
  simp [Value.texts]

theorem OnTheWay.reach (finite : document.isFinite = true)
    (way : OnTheWay document root pending trail schema)
    (refers : schema.get referenceKey = .text reference)
    (found : referenced document reference = .ok target) {pending' : List String} {trail' : Trail}
    (trailed : ∀ passed, .reference passed ∈ trail' → ∀ next, Refers target next →
      namedSchema? next = none → TransGen (Leads document) passed next) :
    OnTheWay document root pending' trail' target := by
  rcases referenced_finite finite found with rfl | held
  · exact ⟨finite, Nat.le_add_right .., fun _ => List.subset_append_left ..,
      way.reached.tail (.target refers found), trailed⟩
  · exact ⟨held.finite finite, Nat.le_trans (Nat.le_of_lt held.size_lt) (Nat.le_add_right ..),
      fun _ => List.subset_append_of_subset_left _ held.texts_subset,
      way.reached.tail (.target refers found), trailed⟩

/-- Past a reference that names no schema there is one reference less to pass. -/
theorem OnTheWay.follow (finite : document.isFinite = true)
    (way : OnTheWay document root pending trail schema)
    (refers : schema.get referenceKey = .text reference) (unnamed : namedSchema? reference = none)
    (found : referenced document reference = .ok target) (fresh : .reference reference ∉ trail) :
    OnTheWay document root pending (.reference reference :: trail) target ∧
      workLeft document root pending (.reference reference :: trail) target <
        workLeft document root pending trail schema := by
  have leads {next : String} (h : Refers target next) (other : namedSchema? next = none) :
      Leads document reference next := ⟨unnamed, other, target, found, h⟩
  have onTheWay : OnTheWay document root pending (.reference reference :: trail) target := by
    refine way.reach finite refers found fun passed member next h other => ?_
    rcases List.mem_cons.mp member with same | member
    · rw [Landmark.reference.inj same]
      exact .single (leads h other)
    · exact (way.trailed passed member reference ⟨schema, .refl, refers⟩ unnamed).tail
        (leads h other)
  refine ⟨onTheWay, mul_add_lt_mul_add (Nat.add_lt_add_left ?_ _) ?_⟩
  · exact unseen_cons_lt (List.mem_map_of_mem (way.mem_allTexts refers)) fresh
  · exact Nat.lt_succ_of_le onTheWay.size_le

/-- Under a name that is entered there is one name less to enter. -/
theorem OnTheWay.enter (finite : document.isFinite = true)
    (way : OnTheWay document root pending trail schema)
    (refers : schema.get referenceKey = .text reference)
    (named : namedSchema? reference = some name)
    (found : referenced document reference = .ok target) (fresh : name ∉ pending) :
    OnTheWay document root (name :: pending) [] target ∧
      workLeft document root (name :: pending) [] target <
        workLeft document root pending trail schema := by
  have onTheWay : OnTheWay document root (name :: pending) [] target :=
    way.reach finite refers found fun _ member => nomatch member
  have listed : name ∈ allNames document root :=
    List.mem_filterMap.mpr ⟨reference, way.mem_allTexts refers, named⟩
  refine ⟨onTheWay, mul_add_lt_mul_add (mul_add_lt_mul_add ?_ ?_) ?_⟩
  · exact unseen_cons_lt listed fresh
  · exact Nat.lt_succ_of_le (Nat.le_trans unseen_le (Nat.le_of_eq (List.length_map ..)))
  · exact Nat.lt_succ_of_le onTheWay.size_le

theorem OnTheWay.workLeft_lt (way : OnTheWay document root pending trail schema) :
    workLeft document root pending trail schema < depthBound document root := by
  have names : unseen (allNames document root) pending ≤ (allTexts document root).length :=
    Nat.le_trans unseen_le (List.length_filterMap_le ..)
  have references : unseen ((allTexts document root).map Landmark.reference) trail ≤
      (allTexts document root).length :=
    Nat.le_trans unseen_le (Nat.le_of_eq (List.length_map ..))
  have few : (allTexts document root).length ≤ document.size + root.size := by
    rw [allTexts, List.length_append]
    exact Nat.add_le_add document.length_texts_le root.length_texts_le
  have passing := mul_add_lt_mul_add (j := 0) (Nat.lt_succ_of_le names)
    (Nat.lt_succ_of_le references)
  have whole := mul_add_lt_mul_add (j := 0) passing (Nat.lt_succ_of_le way.size_le)
  refine Nat.lt_of_lt_of_le whole ?_
  have few := Nat.succ_le_succ few
  rw [depthBound, Nat.pow_eq, Nat.pow_succ, Nat.pow_two]
  exact Nat.mul_le_mul_right _ (Nat.mul_le_mul few few)

end

end ApiBinding.OpenApi
