import ApiBinding.Declaration.Collect
import ApiBinding.Proofs.Entries
import ApiBinding.Proofs.Outcome
import ApiBinding.Proofs.Shape

/-!
The declaration that one meeting of a name gives, and how declarations of different names are kept
and found.
-/

namespace ApiBinding.Declaration

open Identifier (ofRaw)

/-- The declaration that a meeting of a name gives. -/
def ofMeeting (source : String) : Shape → Except Failure Declaration
  | .enumeration _ members _ => ofEnumeration (ofRaw .type source) source members
  | shape => ofObject (ofRaw .type source) source shape.fields shape.additional

def recordFields (fields : List Field) : List (FieldOf TypeHint) :=
  fields.map fun field =>
    { name := field.name, type := TypeHint.ofShape .response field.type, required := field.required }

theorem ofShape?_eq_ok {context : TypeHint.Context} {shape : Shape} {hint : TypeHint} :
    TypeHint.ofShape? context shape = .ok hint ↔
      TypeHint.canSpell shape = true ∧ hint = TypeHint.ofShape context shape := by
  unfold TypeHint.ofShape?
  split
  next spelled => simp [spelled, eq_comm]
  next unspelled => simp [unspelled]

theorem hintedFields_eq_ok {fields : List Field} {hinted : List (FieldOf TypeHint)}
    (h : hintedFields fields = .ok hinted) : hinted = recordFields fields := by
  have h := mapM_eq_ok.mp h
  induction h with
  | nil => rfl
  | cons first _ ih =>
    obtain ⟨hint, hhint, made⟩ := bind_eq_ok.mp first
    cases made
    rw [(ofShape?_eq_ok.mp hhint).2, ih (mapM_eq_ok.mpr ‹_›)]
    rfl

/-- Whether a body says what a meeting of a name tells: members, fields or the shape of values. -/
inductive Describes (shape : Shape) : DeclarationBody → Prop
  | enumeration (empty : shape.fields = []) (members : List Value) :
      Describes shape (.enumeration members)
  | synonym (empty : shape.fields = []) :
      Describes shape (.synonym (.applied .mapping
        [(shape.additional.map (TypeHint.ofShape .response)).getD (.any false)] false))
  | record (listed : shape.fields ≠ []) : Describes shape (.record (recordFields shape.fields))

theorem ofObject_eq_ok {name source : String} {shape : Shape} {d : Declaration}
    (h : ofObject name source shape.fields shape.additional = .ok d) :
    d.name = name ∧ d.source = source ∧ Describes shape d.body := by
  unfold ofObject at h
  split at h
  next empty =>
    have empty : shape.fields = [] := by simpa using empty
    have body := Describes.synonym empty
    cases hadditional : shape.additional with
    | none =>
      rw [hadditional] at h body
      cases h
      exact ⟨rfl, rfl, body⟩
    | some value =>
      rw [hadditional] at h body
      obtain ⟨hint, hhint, made⟩ := bind_eq_ok.mp h
      cases made
      rw [(ofShape?_eq_ok.mp hhint).2]
      exact ⟨rfl, rfl, body⟩
  next listed =>
    obtain ⟨hinted, hhinted, made⟩ := bind_eq_ok.mp h
    cases made
    rw [hintedFields_eq_ok hhinted]
    exact ⟨rfl, rfl, .record (by simpa using listed)⟩

theorem ofMeeting_eq_ok {source : String} {shape : Shape} {d : Declaration}
    (h : ofMeeting source shape = .ok d) :
    d.name = ofRaw .type source ∧ d.source = source ∧ Describes shape d.body := by
  cases shape with
  | enumeration name members nullable =>
    simp only [ofMeeting, ofEnumeration] at h
    split at h
    · cases h
      exact ⟨rfl, rfl, .enumeration rfl _⟩
    · cases h
  | primitive kind nullable => exact ofObject_eq_ok h
  | array element nullable streamable => exact ofObject_eq_ok h
  | object name fields additional nullable => exact ofObject_eq_ok h
  | generic name argument nullable => exact ofObject_eq_ok h
  | unknown description nullable => exact ofObject_eq_ok h

/-- What is declared as an enumeration was met as one, and has its members. -/
theorem enumeration_of_ofMeeting {source : String} {shape : Shape} {d : Declaration}
    {members : List Value} (made : ofMeeting source shape = .ok d)
    (body : d.body = .enumeration members) :
    ∃ title values nullable, shape = .enumeration title values nullable ∧
      members = Entries.distinct Value.same values := by
  have other (h : ofObject (ofRaw .type source) source shape.fields shape.additional = .ok d) :
      False := by
    unfold ofObject at h
    split at h
    next =>
      cases additional : shape.additional with
      | none =>
        rw [additional] at h
        cases h
        cases body
      | some value =>
        rw [additional] at h
        obtain ⟨_, _, h⟩ := bind_eq_ok.mp h
        cases h
        cases body
    next =>
      obtain ⟨_, _, h⟩ := bind_eq_ok.mp h
      cases h
      cases body
  cases shape with
  | enumeration title values nullable =>
    simp only [ofMeeting, ofEnumeration] at made
    split at made
    · cases made
      cases body
      exact ⟨title, values, nullable, rfl, rfl⟩
    · cases made
  | primitive kind nullable => exact (other made).elim
  | array element nullable streamable => exact (other made).elim
  | object name fields additional nullable => exact (other made).elim
  | generic name argument nullable => exact (other made).elim
  | unknown description nullable => exact (other made).elim

theorem Describes.hasFields_iff {shape : Shape} {d : Declaration} (h : Describes shape d.body) :
    d.hasFields = true ↔ shape.fields ≠ [] := by
  obtain ⟨name, source, body⟩ := d
  cases h with
  | enumeration empty members => simp [hasFields, empty]
  | synonym empty => simp [hasFields, empty]
  | record listed => simp [hasFields, recordFields, listed]

theorem names_put (d : Declaration) (found : List Declaration) :
    (put d found).map name =
      if d.name ∈ found.map name then found.map name else found.map name ++ [d.name] := by
  induction found with
  | nil => rfl
  | cons e found ih =>
    by_cases h : e.name = d.name
    · simp [put, h]
    · simp only [put, h, if_false, List.map_cons, ih, List.mem_cons, Ne.symm h, false_or]
      split <;> simp

theorem mem_put_self (d : Declaration) (found : List Declaration) : d ∈ put d found := by
  induction found with
  | nil => simp [put]
  | cons e found ih =>
    by_cases h : e.name = d.name
    · simp [put, h]
    · simp [put, h, ih]

theorem mem_of_mem_put {d e : Declaration} {found : List Declaration} (h : e ∈ put d found) :
    e = d ∨ e ∈ found := by
  induction found with
  | nil => exact .inl (by simpa [put] using h)
  | cons f found ih =>
    by_cases hf : f.name = d.name
    · simp only [put, hf, if_true, List.mem_cons] at h
      exact h.imp_right (List.mem_cons_of_mem _)
    · simp only [put, hf, if_false, List.mem_cons] at h
      rcases h with rfl | h
      · simp
      · exact (ih h).imp_right (List.mem_cons_of_mem _)

theorem mem_put_of_mem {d e : Declaration} {found : List Declaration} (h : e ∈ found)
    (hn : e.name ≠ d.name) : e ∈ put d found := by
  induction found with
  | nil => simp at h
  | cons f found ih =>
    by_cases hf : f.name = d.name
    · have hef : e ≠ f := by rintro rfl; exact hn hf
      simpa [put, hf, hef] using Or.inr (List.mem_of_ne_of_mem hef h)
    · rcases List.mem_cons.mp h with rfl | h
      · simp [put, hf]
      · simp [put, hf, ih h]

theorem mem_put_or_find? {d e : Declaration} {found : List Declaration} (h : e ∈ found) :
    e ∈ put d found ∨ find? found d.name = some e := by
  induction found with
  | nil => cases h
  | cons f found ih =>
    by_cases hf : f.name = d.name
    · rcases List.mem_cons.mp h with rfl | h
      · exact .inr (by simp [find?, hf])
      · exact .inl (by simp [put, hf, h])
    · rcases List.mem_cons.mp h with rfl | h
      · exact .inl (by simp [put, hf])
      · refine (ih h).imp (fun h => ?_) fun h => ?_
        · simp [put, hf, h]
        · simpa [find?, hf] using h

theorem find?_name {found : List Declaration} (distinct : (found.map name).Nodup) {d : Declaration}
    (h : d ∈ found) : find? found d.name = some d :=
  Entries.find?_of_mem name distinct h

theorem mem_of_find? {found : List Declaration} {name : String} {d : Declaration}
    (h : find? found name = some d) : d ∈ found ∧ d.name = name :=
  ⟨List.mem_of_find?_eq_some h, by simpa using List.find?_some h⟩

end ApiBinding.Declaration
