import ApiBinding.Failure
import Mathlib.Data.List.Forall2

/-!
Computations that may fail: what the success of a composed computation says of its parts, and the
failures in which it can end.
-/

namespace ApiBinding

variable {ε α β : Type}

@[simp] theorem pure_eq_ok (a : α) : (pure a : Except ε α) = .ok a := rfl

@[simp] theorem ok_bind (a : α) (next : α → Except ε β) : (Except.ok a >>= next) = next a := rfl

@[simp] theorem error_bind (e : ε) (next : α → Except ε β) :
    ((Except.error e : Except ε α) >>= next) = .error e := rfl

@[simp] theorem bind_ok (run : Except ε α) : (run >>= fun a => .ok a) = run := by
  cases run <;> rfl

@[simp] theorem throw_eq_error (e : ε) : (throw e : Except ε α) = .error e := rfl

theorem bind_eq_ok {run : Except ε α} {next : α → Except ε β} {b : β} :
    (run >>= next) = .ok b ↔ ∃ a, run = .ok a ∧ next a = .ok b := by
  cases run with
  | error e => simp
  | ok a => simp

theorem exists_eq_ok {run : Except ε α} (h : run.isOk = true) : ∃ a, run = .ok a := by
  cases run with
  | error e => cases h
  | ok a => exact ⟨a, rfl⟩

theorem eq_ok_of_toOption {run : Except ε α} {a : α} (h : run.toOption = some a) : run = .ok a := by
  cases run with
  | error e => cases h
  | ok b =>
    cases h
    rfl

theorem map_eq_ok {run : Except ε α} {f : α → β} {b : β} :
    run.map f = .ok b ↔ ∃ a, run = .ok a ∧ f a = b := by
  cases run with
  | error e => simp [Except.map]
  | ok a => simp [Except.map]

theorem map_eq_error {run : Except ε α} {f : α → β} {e : ε} :
    run.map f = .error e ↔ run = .error e := by
  cases run with
  | error e => simp [Except.map]
  | ok a => simp [Except.map]

theorem mapM_eq_ok {f : α → Except ε β} {xs : List α} {ys : List β} :
    xs.mapM f = .ok ys ↔ List.Forall₂ (fun x y => f x = .ok y) xs ys := by
  induction xs generalizing ys with
  | nil => simp [eq_comm]
  | cons x xs ih =>
    rw [List.mapM_cons, bind_eq_ok]
    constructor
    · rintro ⟨y, hy, h⟩
      obtain ⟨zs, hz, h⟩ := bind_eq_ok.mp h
      cases h
      exact .cons hy (ih.mp hz)
    · intro h
      cases h with
      | cons hy hys => exact ⟨_, hy, bind_eq_ok.mpr ⟨_, ih.mpr hys, rfl⟩⟩

/-- What is made of a list is made of the parts before and behind any of its members. -/
theorem mapM_append_cons_eq_ok {f : α → Except ε β} {before after : List α} {x : α} {ys : List β}
    (h : (before ++ x :: after).mapM f = .ok ys) :
    ∃ first y last, before.mapM f = .ok first ∧ f x = .ok y ∧ after.mapM f = .ok last ∧
      ys = first ++ y :: last := by
  rw [List.mapM_append, List.mapM_cons] at h
  obtain ⟨first, hfirst, h⟩ := bind_eq_ok.mp h
  obtain ⟨rest, hrest, h⟩ := bind_eq_ok.mp h
  obtain ⟨y, hy, hrest⟩ := bind_eq_ok.mp hrest
  obtain ⟨last, hlast, hrest⟩ := bind_eq_ok.mp hrest
  cases hrest
  cases h
  exact ⟨first, y, last, hfirst, hy, hlast, rfl⟩

theorem exists_of_forall₂ {R : α → β → Prop} {xs : List α} {ys : List β}
    (h : List.Forall₂ R xs ys) {y : β} (hy : y ∈ ys) : ∃ x ∈ xs, R x y := by
  induction h with
  | nil => cases hy
  | cons here _ ih =>
    rcases List.mem_cons.mp hy with rfl | hy
    · exact ⟨_, List.mem_cons_self, here⟩
    · obtain ⟨x, hx, hr⟩ := ih hy
      exact ⟨x, List.mem_cons_of_mem _ hx, hr⟩

/-- Whether every failure of the computation is one of those allowed. -/
def FailsOnly (allowed : ε → Prop) (run : Except ε α) : Prop :=
  ∀ failure, run = .error failure → allowed failure

namespace FailsOnly

variable {allowed : ε → Prop}

@[simp] theorem ok (a : α) : FailsOnly allowed (Except.ok a) := by
  intro failure h
  cases h

@[simp] theorem error_iff {failure : ε} :
    FailsOnly allowed (Except.error failure : Except ε α) ↔ allowed failure :=
  ⟨fun h => h _ rfl, fun h _ hf => by cases hf; exact h⟩

theorem bind {run : Except ε α} {next : α → Except ε β} (first : FailsOnly allowed run)
    (rest : ∀ a, run = .ok a → FailsOnly allowed (next a)) : FailsOnly allowed (run >>= next) := by
  cases run with
  | error e =>
    intro failure h
    cases h
    exact first e rfl
  | ok a => exact rest a rfl

theorem map {run : Except ε α} {f : α → β} (h : FailsOnly allowed run) :
    FailsOnly allowed (run.map f) := by
  cases run with
  | error e => simpa [Except.map] using h
  | ok a => simp [Except.map]

theorem mapM {f : α → Except ε β} {xs : List α} (each : ∀ x ∈ xs, FailsOnly allowed (f x)) :
    FailsOnly allowed (xs.mapM f) := by
  induction xs with
  | nil => simp
  | cons x xs ih =>
    rw [List.mapM_cons]
    refine bind (each x (by simp)) fun y _ => bind (ih fun z hz => each z (by simp [hz])) ?_
    intro ys _
    exact ok _

theorem mono {other : ε → Prop} {run : Except ε α} (h : FailsOnly allowed run)
    (weaker : ∀ failure, allowed failure → other failure) : FailsOnly other run :=
  fun failure hf => weaker failure (h failure hf)

end FailsOnly

/-- Whether the computation gives a result under a condition, and one certain failure without it. -/
structure HingesOn (failure : ε) (condition : Prop) (run : Except ε α) : Prop where
  ok : condition → ∃ a, run = .ok a
  error : ¬condition → run = .error failure

namespace HingesOn

variable {failure : ε} {p q : Prop} {run : Except ε α}

theorem of_ok (a : α) : HingesOn failure True (.ok a : Except ε α) :=
  ⟨fun _ => ⟨a, rfl⟩, fun h => absurd trivial h⟩

theorem ok_iff (h : HingesOn failure p run) : (∃ a, run = .ok a) ↔ p := by
  refine ⟨?_, h.ok⟩
  rintro ⟨a, ok⟩
  by_contra without
  cases ok.symm.trans (h.error without)

theorem congr (h : HingesOn failure p run) (same : p ↔ q) : HingesOn failure q run :=
  ⟨fun hq => h.ok (same.mpr hq), fun hq => h.error fun hp => hq (same.mp hp)⟩

theorem bind {next : α → Except ε β} (first : HingesOn failure p run)
    (rest : ∀ a, run = .ok a → HingesOn failure q (next a)) :
    HingesOn failure (p ∧ q) (run >>= next) := by
  cases run with
  | error e =>
    have without : ¬p := fun hp => by simpa using first.ok hp
    refine ⟨fun both => absurd both.1 without, fun _ => ?_⟩
    rw [first.error without, error_bind]
  | ok a =>
    have given : p := first.ok_iff.mp ⟨a, rfl⟩
    refine ⟨fun both => (rest a rfl).ok both.2, fun missing => (rest a rfl).error fun hq => ?_⟩
    exact missing ⟨given, hq⟩

theorem finish {next : α → Except ε β} (h : HingesOn failure p run)
    (ends : ∀ a, ∃ b, next a = .ok b) : HingesOn failure p (run >>= next) := by
  refine (h.bind (q := True) fun a _ => ?_).congr (and_iff_left trivial)
  obtain ⟨b, same⟩ := ends a
  exact same ▸ of_ok b

theorem map {f : α → β} (h : HingesOn failure p run) : HingesOn failure p (run.map f) where
  ok hp := by
    obtain ⟨a, rfl⟩ := h.ok hp
    exact ⟨f a, rfl⟩
  error hp := by rw [h.error hp, Except.map]

theorem mapM {f : α → Except ε β} {condition : α → Prop} (xs : List α)
    (each : ∀ x ∈ xs, HingesOn failure (condition x) (f x)) :
    HingesOn failure (∀ x ∈ xs, condition x) (xs.mapM f) := by
  induction xs with
  | nil => exact (of_ok []).congr (by simp)
  | cons x xs ih =>
    rw [List.forall_mem_cons] at each
    rw [List.mapM_cons, List.forall_mem_cons]
    exact each.1.bind fun y _ => (ih each.2).finish fun ys => ⟨y :: ys, rfl⟩

end HingesOn

end ApiBinding
