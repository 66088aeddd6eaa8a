import ApiBinding.Text.Case
import Mathlib.Data.Nat.Notation

/-!
What upper case keeps: an ASCII character that is no letter stands at the start of a text in upper
case exactly if it stood there before.
-/

namespace ApiBinding.Text

variable {c d : Char} {s : String}

theorem isUpper_iff_toNat : d.isUpper = true ↔ 65 ≤ d.toNat ∧ d.toNat ≤ 90 := by
  show decide ('A'.val ≤ d.val ∧ d.val ≤ 'Z'.val) = true ↔ _
  simp [UInt32.le_iff_toNat_le, ← Char.toNat_val]

theorem toNat_ofNat {n : Nat} (h : n.isValidChar) : (Char.ofNat n).toNat = n := by
  rw [Char.ofNat, dif_pos h]
  rfl

theorem forall_ascii {motive : Char → Prop} (each : ∀ n < 128, motive (Char.ofNat n))
    (ascii : c.toNat < 128) : motive c := by
  simpa using each c.toNat ascii

theorem toUpper_ascii (ascii : c.toNat < 128) :
    (c.isAlpha = true ∧ c.toUpper.isUpper = true) ∨ c.toUpper = c :=
  forall_ascii (motive := fun c => (c.isAlpha = true ∧ c.toUpper.isUpper = true) ∨ c.toUpper = c)
    (by decide +kernel) ascii

/-- The rows of the table give characters beyond ASCII, on either side of the halves that are no
characters, or ASCII capitals. -/
theorem upperRuns_images : ∀ run ∈ upperRuns,
    (128 ≤ run.first + run.shift ∧ run.last + run.shift < 55296) ∨
      (57343 < run.first + run.shift ∧ run.last + run.shift < 1114112) ∨
      (65 ≤ run.first + run.shift ∧ run.last + run.shift ≤ 90) := by
  decide +kernel

theorem upperLong_images : ∀ entry ∈ upperLong, entry.2 ≠ [] ∧
    ∀ code ∈ entry.2, (128 ≤ code ∧ code < 55296) ∨ (65 ≤ code ∧ code ≤ 90) := by
  decide +kernel

theorem toNat_of_image? {run : CaseRun} (hrun : run ∈ upperRuns) (h : run.image? c = some d) :
    128 ≤ d.toNat ∨ d.isUpper = true := by
  unfold CaseRun.image? at h
  dsimp only at h
  split at h
  next inside =>
    cases h
    have bounds := upperRuns_images run hrun
    have valid : ((c.toNat : Int) + run.shift).toNat.isValidChar := by
      unfold Nat.isValidChar
      omega
    rw [isUpper_iff_toNat, toNat_ofNat valid]
    omega
  next => cases h

/-- What a character becomes lies beyond ASCII, is a capital, or is the character itself. -/
theorem mem_upperChar (h : d ∈ upperChar c) :
    128 ≤ d.toNat ∨ d.isUpper = true ∨ d = c := by
  unfold upperChar at h
  split at h
  next ascii =>
    obtain rfl : d = c.toUpper := by simpa using h
    exact .inr ((toUpper_ascii ascii).imp_left And.right)
  next foreign =>
    unfold fromTables at h
    split at h
    next entry codes found =>
      obtain ⟨code, hcode, rfl⟩ := List.mem_map.mp h
      have bounds := (upperLong_images _ (List.mem_of_find?_eq_some found)).2 code hcode
      have valid : code.isValidChar := by
        unfold Nat.isValidChar
        omega
      rw [isUpper_iff_toNat, toNat_ofNat valid]
      omega
    next =>
      obtain rfl : d = (upperRuns.findSome? (·.image? c)).getD c := by simpa using h
      cases found : upperRuns.findSome? (·.image? c) with
      | none =>
        left
        simpa using foreign
      | some image =>
        obtain ⟨run, hrun, himage⟩ := List.exists_of_findSome?_eq_some found
        exact (toNat_of_image? hrun himage).imp_right .inl

theorem upperChar_ne_nil (c : Char) : upperChar c ≠ [] := by
  unfold upperChar
  split
  next => simp
  next =>
    unfold fromTables
    split
    next entry codes found =>
      simpa using (upperLong_images _ (List.mem_of_find?_eq_some found)).1
    next => simp

theorem toList_upper (s : String) : (upper s).toList = s.toList.flatMap upperChar := by
  simp [upper]

/-- A text in upper case starts with an ASCII character that is no letter exactly if the text did. -/
theorem head?_upper (ascii : d.toNat < 128) (other : d.isAlpha = false) :
    (upper s).toList.head? = some d ↔ s.toList.head? = some d := by
  have notCapital : d.isUpper = false := (Bool.or_eq_false_iff.mp other).1
  rw [toList_upper]
  cases s.toList with
  | nil => simp
  | cons c rest =>
    have front : (upperChar c ++ rest.flatMap upperChar).head? = (upperChar c).head? := by
      cases h : upperChar c with
      | nil => exact absurd h (upperChar_ne_nil c)
      | cons first others => rfl
    rw [List.flatMap_cons, front, List.head?_cons]
    constructor
    · intro h
      rcases mem_upperChar (List.mem_of_mem_head? h) with foreign | capital | same
      · omega
      · simp [notCapital] at capital
      · rw [same]
    · intro h
      obtain rfl : c = d := by simpa using h
      rw [upperChar, if_pos ascii, List.head?_cons]
      rcases toUpper_ascii ascii with ⟨letter, _⟩ | same
      · simp [other] at letter
      · rw [same]

end ApiBinding.Text
