import ApiBinding.Proofs.Entries
import ApiBinding.Value
import Mathlib.Algebra.Order.Field.Power
import Mathlib.Data.Rat.Cast.Order
import Mathlib.Tactic.Linarith
import Mathlib.Tactic.Ring

/-!
Equality of scalars: two are equal if they stand for the same. Truth values, whole numbers and binary
numbers stand for rational numbers, which a binary number does in one way only. So values can be
listed without those that are equal to one before.
-/

namespace ApiBinding

/-- What a scalar stands for when it is compared. -/
inductive Denoted where
  | number (q : ℚ)
  | itself (s : Scalar)
deriving DecidableEq

namespace Binary64

/-- Whether a number has the one form that it can have in 64 bits. -/
def IsCanonical : Binary64 → Prop
  | .finite _ significand exponent => significand < 2 ^ 53 ∧ -1074 ≤ exponent ∧
      (2 ^ 52 ≤ significand ∨ exponent = -1074)
  | .infinite _ => True
  | .nan => False

/-- What a finite number is apart from its sign. -/
def magnitude (significand : Nat) (exponent : Int) : ℚ := significand * 2 ^ exponent

def signed (negative : Bool) (q : ℚ) : ℚ := if negative then -q else q

theorem zpow_two_pos (exponent : Int) : (0 : ℚ) < 2 ^ exponent := zpow_pos (by norm_num) exponent

theorem zpow_mul_twoTo (exponent : Int) :
    (2 : ℚ) ^ exponent * twoTo (-exponent) = twoTo exponent := by
  have natural (n : Nat) : ((Nat.pow 2 n : Nat) : ℚ) = 2 ^ n := by
    rw [Nat.pow_eq, Nat.cast_pow, Nat.cast_ofNat]
  unfold twoTo
  rw [natural, natural]
  rcases Int.le_total 0 exponent with up | down
  · obtain ⟨n, rfl⟩ := Int.eq_ofNat_of_zero_le up
    simp
  · obtain ⟨n, hn⟩ := Int.eq_ofNat_of_zero_le (show 0 ≤ -exponent by omega)
    obtain rfl : exponent = -n := by omega
    simp

theorem magnitude_nonneg (significand : Nat) (exponent : Int) :
    0 ≤ magnitude significand exponent :=
  mul_nonneg (Nat.cast_nonneg _) (zpow_two_pos exponent).le

theorem magnitude_eq_zero {significand : Nat} {exponent : Int} :
    magnitude significand exponent = 0 ↔ significand = 0 := by
  simp [magnitude, (zpow_two_pos exponent).ne']

theorem magnitude_eq_natCast {significand n : Nat} {exponent : Int} :
    magnitude significand exponent = n ↔
      significand * twoTo exponent = n * twoTo (-exponent) := by
  have positive : (twoTo (-exponent) : ℚ) ≠ 0 := by simp [twoTo]
  rw [magnitude, ← @Nat.cast_inj ℚ, Nat.cast_mul, Nat.cast_mul, ← zpow_mul_twoTo exponent,
    ← mul_assoc]
  exact (mul_left_inj' positive).symm

theorem signed_inj {negative negative' : Bool} {q r : ℚ} (hq : 0 ≤ q) (hr : 0 ≤ r) :
    signed negative q = signed negative' r ↔ q = r ∧ (q = 0 ∨ negative = negative') := by
  have opposite (a b : ℚ) (ha : 0 ≤ a) (hb : 0 ≤ b) : -a = b ↔ a = b ∧ a = 0 := by
    constructor
    · intro h
      constructor <;> linarith
    · rintro ⟨rfl, zero⟩
      rw [zero, neg_zero]
  cases negative <;> cases negative'
  · simp [signed]
  · have swapped : q = -r ↔ q = r ∧ q = 0 := by
      rw [eq_comm, opposite r q hr hq]
      constructor <;> rintro ⟨rfl, zero⟩ <;> exact ⟨rfl, zero⟩
    simpa [signed] using swapped
  · simpa [signed] using opposite q r hq hr
  · simp [signed]

/-- The larger of two exponents belongs to the larger magnitude. -/
theorem magnitude_lt {significand significand' : Nat} {exponent exponent' : Int}
    (h : significand < 2 ^ 53) (h' : 2 ^ 52 ≤ significand') (less : exponent < exponent') :
    magnitude significand exponent < magnitude significand' exponent' := by
  have small : (significand : ℚ) < 2 ^ 53 := by exact_mod_cast h
  have large : (2 : ℚ) ^ 52 ≤ significand' := by exact_mod_cast h'
  have next : (2 : ℚ) ^ (exponent + 1) ≤ 2 ^ exponent' :=
    zpow_le_zpow_right₀ (by norm_num) (by omega)
  have double : (2 : ℚ) ^ (exponent + 1) = 2 * 2 ^ exponent := by
    rw [zpow_add_one₀ (by norm_num), mul_comm]
  calc magnitude significand exponent
      < 2 ^ 53 * 2 ^ exponent := mul_lt_mul_of_pos_right small (zpow_two_pos exponent)
    _ = 2 ^ 52 * 2 ^ (exponent + 1) := by rw [double]; ring
    _ ≤ 2 ^ 52 * 2 ^ exponent' := mul_le_mul_of_nonneg_left next (by norm_num)
    _ ≤ magnitude significand' exponent' :=
      mul_le_mul_of_nonneg_right large (zpow_two_pos exponent').le

theorem magnitude_inj {negative negative' : Bool} {significand significand' : Nat}
    {exponent exponent' : Int} (h : IsCanonical (.finite negative significand exponent))
    (h' : IsCanonical (.finite negative' significand' exponent')) :
    magnitude significand exponent = magnitude significand' exponent' ↔
      significand = significand' ∧ exponent = exponent' := by
  obtain ⟨small, low, whole⟩ := h
  obtain ⟨small', low', whole'⟩ := h'
  constructor
  · intro same
    rcases Int.lt_trichotomy exponent exponent' with less | equal | more
    · have less := magnitude_lt small (whole'.resolve_right (by omega)) less
      exact absurd same less.ne
    · subst equal
      have same := mul_right_cancel₀ (zpow_two_pos exponent).ne' same
      exact ⟨by exact_mod_cast same, rfl⟩
    · have less := magnitude_lt small' (whole.resolve_right (by omega)) more
      exact absurd same less.ne'
  · rintro ⟨rfl, rfl⟩
    rfl

def denoted : Binary64 → Denoted
  | .finite negative significand exponent =>
    .number (signed negative (magnitude significand exponent))
  | x => .itself (.float x)

theorem denoted_ne {x : Binary64} {s : Scalar} (other : ∀ y, s ≠ .float y) :
    x.denoted ≠ .itself s := by
  cases x with
  | finite => simp [denoted]
  | infinite negative => simpa [denoted, eq_comm] using other (.infinite negative)
  | nan => simpa [denoted, eq_comm] using other .nan

theorem isInt_iff {x : Binary64} {i : Int} : x.isInt i = true ↔ x.denoted = .number i := by
  cases x with
  | infinite => simp [isInt, denoted]
  | nan => simp [isInt, denoted]
  | finite negative significand exponent =>
    have apart : (i : ℚ) = signed (decide (i < 0)) (i.natAbs : ℚ) := by
      have absolute : (i.natAbs : ℚ) = |(i : ℚ)| := by
        rw [← Int.cast_abs, ← Int.natCast_natAbs, Int.cast_natCast]
      rw [absolute]
      by_cases below : i < 0
      · have below' : (i : ℚ) < 0 := by exact_mod_cast below
        simp [signed, below, abs_of_neg below']
      · have above : (0 : ℚ) ≤ i := by exact_mod_cast Int.not_lt.mp below
        simp [signed, below, abs_of_nonneg above]
    rw [denoted, Denoted.number.injEq, apart, signed_inj (magnitude_nonneg ..) (Nat.cast_nonneg _),
      magnitude_eq_natCast, magnitude_eq_zero]
    simp [isInt]

theorem same_iff {x y : Binary64} (hx : x.IsCanonical) (hy : y.IsCanonical) :
    x.same y = true ↔ x.denoted = y.denoted := by
  cases x with
  | nan => exact hx.elim
  | infinite negative =>
    cases y with
    | nan => exact hy.elim
    | infinite negative' => simp [same, denoted]
    | finite => simp [same, denoted]
  | finite negative significand exponent =>
    cases y with
    | nan => exact hy.elim
    | infinite negative' => simp [same, denoted]
    | finite negative' significand' exponent' =>
      have nothing : significand = 0 → significand' = 0 → exponent = exponent' := by
        rintro rfl rfl
        obtain ⟨_, _, low⟩ := hx
        obtain ⟨_, _, low'⟩ := hy
        exact (low.resolve_left (by omega)).trans (low'.resolve_left (by omega)).symm
      rw [denoted, denoted, Denoted.number.injEq, signed_inj (magnitude_nonneg ..) (magnitude_nonneg ..),
        magnitude_inj hx hy, magnitude_eq_zero]
      simp only [same, Bool.or_eq_true, Bool.and_eq_true, beq_iff_eq]
      constructor
      · rintro (⟨rfl, rfl⟩ | ⟨⟨rfl, rfl⟩, rfl⟩)
        · exact ⟨⟨rfl, nothing rfl rfl⟩, .inl rfl⟩
        · exact ⟨⟨rfl, rfl⟩, .inr rfl⟩
      · rintro ⟨⟨rfl, rfl⟩, rfl | rfl⟩
        · exact .inl ⟨rfl, rfl⟩
        · exact .inr ⟨⟨rfl, rfl⟩, rfl⟩

end Binary64

namespace Scalar

/-- Whether the scalar is one that JSON has. -/
def IsJson : Scalar → Prop
  | .float x => x.IsCanonical
  | .bytes _ | .moment _ => False
  | _ => True

def denoted (s : Scalar) : Denoted :=
  match s with
  | .float x => x.denoted
  | _ => (s.whole?.map fun i : Int => .number i).getD (.itself s)

theorem same_float_iff {s : Scalar} {y : Binary64} (hs : s.IsJson) (hy : y.IsCanonical) :
    s.same (.float y) = true ↔ s.denoted = y.denoted := by
  cases s with
  | bytes => exact hs.elim
  | moment => exact hs.elim
  | float x => exact Binary64.same_iff hs hy
  | bool b => exact Binary64.isInt_iff.trans eq_comm
  | int i => exact Binary64.isInt_iff.trans eq_comm
  | null => simpa [same, denoted, whole?] using (Binary64.denoted_ne (by simp)).symm
  | nan name => simpa [same, denoted, whole?] using (Binary64.denoted_ne (by simp)).symm
  | text s => simpa [same, denoted, whole?] using (Binary64.denoted_ne (by simp)).symm

theorem float_same {x : Binary64} {t : Scalar} (other : ∀ y, t ≠ .float y) :
    (float x).same t = t.same (.float x) := by
  cases t with
  | float y => exact absurd rfl (other y)
  | _ => rfl

/-- Two scalars are equal if they stand for the same. -/
theorem same_iff {s t : Scalar} (hs : s.IsJson) (ht : t.IsJson) :
    s.same t = true ↔ s.denoted = t.denoted := by
  by_cases second : ∃ y, t = .float y
  · obtain ⟨y, rfl⟩ := second
    exact same_float_iff hs ht
  have second : ∀ y, t ≠ .float y := not_exists.mp second
  by_cases first : ∃ x, s = .float x
  · obtain ⟨x, rfl⟩ := first
    rw [float_same second, same_float_iff ht hs, eq_comm]
    rfl
  -- Without binary numbers, those left are whole numbers or equal nothing but themselves.
  cases s with
  | bytes => exact hs.elim
  | moment => exact hs.elim
  | float x => exact absurd ⟨x, rfl⟩ first
  | null | nan | text =>
    cases t with
    | bytes | moment => exact ht.elim
    | float y => exact absurd rfl (second y)
    | _ => simp [same, denoted, whole?]
  | bool | int =>
    cases t with
    | bytes | moment => exact ht.elim
    | float y => exact absurd rfl (second y)
    | bool | int =>
      simp only [same, denoted, whole?, beq_iff_eq, Option.map_some, Option.getD_some,
        Denoted.number.injEq, Int.cast_inj]
    | _ => simp [same, denoted, whole?]

end Scalar

namespace Value

/-- Whether the value is a scalar that JSON has. -/
def IsJsonScalar (v : Value) : Prop := ∃ s, v = .scalar s ∧ s.IsJson

def denoted? : Value → Option Denoted
  | .scalar s => some s.denoted
  | _ => none

theorem same_eq {v w : Value} (hv : v.IsJsonScalar) (hw : w.IsJsonScalar) :
    v.same w = (v.denoted? == w.denoted?) := by
  obtain ⟨s, rfl, hs⟩ := hv
  obtain ⟨t, rfl, ht⟩ := hw
  rw [Bool.eq_iff_iff, beq_iff_eq, denoted?, denoted?, Option.some_inj]
  exact Scalar.same_iff hs ht

/-- Whether some values list others: each of these once, by the first that is equal to it, and in
their order. -/
structure Lists (listed values : List Value) : Prop where
  order : listed.Sublist values
  distinct : listed.Pairwise fun v w => v.same w = false
  complete : ∀ v ∈ values, ∃ w ∈ listed, values.find? (·.same v) = some w

theorem lists_distinct {values : List Value} (scalars : ∀ v ∈ values, v.IsJsonScalar) :
    Lists (Entries.distinct same values) values where
  order := Entries.distinct_sublist same values
  distinct := Entries.pairwise_distinct same values
  complete v hv := by
    have keyed : Entries.distinct same values = Entries.firsts denoted? values :=
      Entries.distinct_congr fun a ha b hb => same_eq (scalars a ha) (scalars b hb)
    have present := (Entries.key_mem_map_firsts denoted?).mpr (List.mem_map_of_mem hv)
    obtain ⟨w, hw, equal⟩ := List.mem_map.mp present
    refine ⟨w, keyed ▸ hw, ?_⟩
    rw [← (Entries.mem_firsts denoted?).mp hw, equal, ← List.head?_filter, ← List.head?_filter]
    exact congrArg List.head? (List.filter_congr fun a ha => same_eq (scalars a ha) (scalars v hv))

end Value

end ApiBinding
