import ApiBinding.Proofs.OpenApi.Session
import Mathlib.Data.Set.Defs

/-!
What a request leaves behind for later ones: names that it made known. A later request finds out
only by taking up one of them.
-/

namespace ApiBinding.OpenApi

theorem Conversion.run_eq_of_fst {α : Type} {conversion : Conversion α} {progress : Progress}
    {result : Except Failure α} (h : (conversion.run progress).1 = result) :
    conversion.run progress = (result, (conversion.run progress).2) := Prod.ext h rfl

/-- Whether two states of progress differ in nothing but what is known of the given names. -/
structure Apart (names : Set String) (progress other : Progress) : Prop where
  pending : other.pending = progress.pending
  same : ∀ name ∉ names, Entries.get? (· == ·) name other.named =
    Entries.get? (· == ·) name progress.named

/-- Whether none of the given names is known or pending. -/
def Untouched (names : Set String) (progress : Progress) : Prop :=
  ∀ name ∈ names, ¬progress.answers name

/-- Whether a conversion does the same from wherever it leaves the same names untouched. -/
structure Spares {α : Type} (conversion : Conversion α) : Prop where
  halts : ∀ progress, Halts progress (conversion.run progress).1 (conversion.run progress).2
  apart : ∀ {names progress other}, Apart names progress other →
    Untouched names (conversion.run progress).2 →
    (conversion.run other).1 = (conversion.run progress).1 ∧
      Apart names (conversion.run progress).2 (conversion.run other).2

section

variable {α β : Type} {names : Set String} {progress other : Progress}

theorem Halts.untouched {left : Progress} {result : Except Failure α}
    (halts : Halts progress result left) (untouched : Untouched names left) :
    Untouched names progress := by
  intro name member answers
  exact untouched name member (answers.imp (halts.knows name) fun waits => halts.waits waits)

theorem Untouched.of_settle {name : String} {shape : Shape}
    (untouched : Untouched names (progress.settle name (.ok shape))) (free : name ∉ names) :
    Untouched names progress := by
  intro absent member answers
  refine untouched absent member (answers.imp (fun known => ?_) fun waits => ?_)
  · rw [knows_settle_ok, known, Bool.or_true]
  · have different : absent ≠ name := fun same => free (same ▸ member)
    rw [pending_settle]
    exact (List.mem_erase_of_ne different).mpr waits

theorem Apart.answers (apart : Apart names progress other) {name : String} (free : name ∉ names) :
    other.answers name ↔ progress.answers name := by
  rw [Progress.answers, Progress.answers, Progress.knows, Progress.knows, apart.same name free,
    apart.pending]

theorem Apart.begin (apart : Apart names progress other) (name : String) :
    Apart names (progress.begin name) (other.begin name) :=
  ⟨congrArg (List.cons name) apart.pending, apart.same⟩

theorem Apart.settle (apart : Apart names progress other) (name : String) (shape : Shape) :
    Apart names (progress.settle name (.ok shape)) (other.settle name (.ok shape)) := by
  refine ⟨by rw [pending_settle, pending_settle, apart.pending], fun free absent => ?_⟩
  show Entries.get? (· == ·) free (Entries.put (· == ·) name shape other.named) =
    Entries.get? (· == ·) free (Entries.put (· == ·) name shape progress.named)
  rw [Entries.get?_put, Entries.get?_put, apart.same free absent]

theorem Spares.still {conversion : Conversion α} (result : Except Failure α)
    (more : Progress → List Warning)
    (ran : ∀ progress, conversion.run progress =
      (result, { progress with warnings := more progress })) : Spares conversion := by
  constructor
  · intro progress
    rw [ran]
    exact .still _ rfl rfl
  · intro names progress other apart _
    rw [ran, ran]
    exact ⟨rfl, apart.pending, apart.same⟩

theorem Spares.bind {first : Conversion α} {next : α → Conversion β} (here : Spares first)
    (rest : ∀ a, Spares (next a)) : Spares (first >>= next) := by
  constructor
  · exact fun progress => (here.halts progress).bind fun a => (rest a).halts
  · intro names progress other apart untouched
    have along := here.apart apart
    rcases ran : first.run progress with ⟨failure | a, middle⟩
    · rw [Conversion.run_bind_error ran] at untouched ⊢
      rw [ran] at along
      obtain ⟨same, apart⟩ := along untouched
      rw [Conversion.run_bind_error (Conversion.run_eq_of_fst same)]
      exact ⟨rfl, apart⟩
    · rw [Conversion.run_bind_ok ran] at untouched ⊢
      rw [ran] at along
      obtain ⟨same, apart⟩ := along (((rest a).halts middle).untouched untouched)
      rw [Conversion.run_bind_ok (Conversion.run_eq_of_fst same)]
      exact (rest a).apart apart untouched

def Spares.agreement : Agreement where
  holds first _ := Spares first
  pure a := .still (.ok a) Progress.warnings fun _ => rfl
  fail failure := .still (.error failure) Progress.warnings fun _ => rfl
  warn warning := .still (.ok ()) (fun progress => progress.warnings ++ [warning]) fun _ => rfl
  bind here rest := here.bind rest

end

section

variable {document : Value} {shapeOf : Converter} {trail : Trail} {reference name : String}
  (named : namedSchema? reference = some name)

include named

/-- A reference by name leaves the name known or pending. -/
theorem answers_openReference {progress : Progress}
    (target : ∀ progress, Halts progress
      ((targetShape document shapeOf reference name).run progress).1
      ((targetShape document shapeOf reference name).run progress).2) :
    ((openReference document shapeOf trail reference).run progress).2.answers name := by
  by_cases answers : progress.answers name
  · obtain ⟨shape, ran⟩ := run_named_of_answers named answers
    rw [run_openReference_of_answers shapeOf shapeOf named answers, ran]
    exact answers
  · have halts := target (progress.begin name)
    rw [run_openReference_of_not_answers named answers]
    rcases ran : (targetShape document shapeOf reference name).run (progress.begin name) with
      ⟨failure | shape, left⟩
    · rw [ran] at halts
      exact .inr (halts.waits (List.mem_cons_self ..))
    · left
      rw [knows_settle_ok, decide_eq_true rfl, Bool.true_or]

/-- A name that was not touched stands for the same from either progress. -/
theorem run_openReference_apart {names : Set String} {progress other : Progress}
    (answers : progress.answers name) (free : name ∉ names) (apart : Apart names progress other) :
    ∃ shape, (openReference document shapeOf trail reference).run progress = (.ok shape, progress) ∧
      (openReference document shapeOf trail reference).run other = (.ok shape, other) := by
  have answers' := (apart.answers free).mpr answers
  rw [run_openReference_of_answers shapeOf shapeOf named answers,
    run_openReference_of_answers shapeOf shapeOf named answers', run_referenceShape named,
    run_referenceShape named, apart.same name free, apart.pending]
  cases kept : Entries.get? (· == ·) name progress.named with
  | some shape => exact ⟨shape, rfl, rfl⟩
  | none =>
    have waits := contains_of_answers answers kept
    exact ⟨_, if_pos waits, if_pos waits⟩

theorem Spares.openReference
    (halts : ∀ progress,
      Halts progress ((openReference document shapeOf trail reference).run progress).1
        ((openReference document shapeOf trail reference).run progress).2)
    (target : Spares (targetShape document shapeOf reference name)) :
    Spares (openReference document shapeOf trail reference) := by
  refine ⟨halts, fun {names progress other} apart untouched => ?_⟩
  -- The name is known or pending in the end, so it is none of those that are left untouched.
  have free : name ∉ names := fun member =>
    untouched name member (answers_openReference named target.halts)
  by_cases answers : progress.answers name
  · obtain ⟨shape, ran, ran'⟩ := run_openReference_apart named answers free apart
    rw [ran, ran']
    exact ⟨rfl, apart⟩
  · have unanswered : ¬other.answers name := mt (apart.answers free).mp answers
    have along := target.apart (apart.begin name)
    rw [run_openReference_of_not_answers named answers] at untouched ⊢
    rw [run_openReference_of_not_answers named unanswered]
    rcases ran : (targetShape document shapeOf reference name).run (progress.begin name) with
      ⟨failure | shape, left⟩
    · rw [ran] at along untouched
      obtain ⟨same, apart⟩ := along untouched
      rw [Conversion.run_eq_of_fst same]
      exact ⟨rfl, apart⟩
    · rw [ran] at along untouched
      obtain ⟨same, apart⟩ := along (untouched.of_settle free)
      rw [Conversion.run_eq_of_fst same]
      exact ⟨rfl, apart.settle name shape⟩

end

theorem spares_openAt (document : Value) (depth : Nat) :
    ∀ trail schema, Spares (openAt document depth trail schema) := by
  induction depth with
  | zero => exact fun _ _ => Spares.agreement.fail _
  | succ depth ih =>
    intro trail schema
    show Spares.agreement.holds _ (openAt document (depth + 1) trail schema)
    refine Spares.agreement.stepWith ih (fun trail reference => ?_) trail schema
    cases named : namedSchema? reference with
    | none =>
      rw [openReference_of_none named]
      exact Spares.agreement.unnamedShape ih trail reference
    | some name =>
      have target : Spares.agreement.holds _ (targetShape document (openAt document depth)
        reference name) := Spares.agreement.targetShape ih reference name
      refine Spares.openReference named (fun progress => ?_) target
      have exposes : Exposes (targetShape document (shapeAt document depth) reference name)
          (targetShape document (openAt document depth) reference name) :=
        Exposes.agreement.targetShape (exposes_openAt document depth) reference name
      exact (Exposes.named named exposes).halts progress

theorem spares_openAnswer (document : Value) (request : Request) :
    Spares (openAnswer document request) :=
  show Spares.agreement.holds _ (openAnswer document request) from
  Spares.agreement.answerBy (fun schema => spares_openAt document _ [] schema) request

/-- Whether a name is known after a request, or its conversion has failed in it. -/
def TakesUp (document : Value) (progress : Progress) (request : Request) (name : String) : Prop :=
  ((answer document request).run progress).2.knows name = true ∨
    name ∈ unfinished document progress request

instance (document : Value) (progress : Progress) (request : Request) (name : String) :
    Decidable (TakesUp document progress request name) := by
  unfold TakesUp
  infer_instance

section

variable {document : Value} {names : Set String} {progress other : Progress}

theorem outcome_apart {request : Request} (apart : Apart names progress other)
    (spared : ∀ name ∈ names, ¬TakesUp document progress request name) :
    outcome document other request = outcome document progress request ∧
      Apart names ((answer document request).run progress).2
        ((answer document request).run other).2 := by
  have same := (exposes_answer document request).same
  have untouched : Untouched names ((openAnswer document request).run progress).2 := by
    intro name member answers
    refine spared name member (answers.imp (fun known => ?_) id)
    rw [same]
    exact known
  obtain ⟨equal, after⟩ := (spares_openAnswer document request).apart apart untouched
  rw [outcome, outcome, same progress, same other]
  exact ⟨equal, apart.pending, after.same⟩

theorem progressAfter_apart {requests : List Request} (apart : Apart names progress other)
    (spared : ∀ first next, first ++ [next] <+: requests → ∀ name ∈ names,
      ¬TakesUp document (progressAfter document progress first) next name) :
    Apart names (progressAfter document progress requests)
      (progressAfter document other requests) := by
  induction requests generalizing progress other with
  | nil => exact apart
  | cons request requests ih =>
    have here := outcome_apart apart (spared [] request (List.prefix_append [request] requests))
    refine ih here.2 fun first next split => ?_
    exact spared (request :: first) next (List.cons_prefix_cons.mpr ⟨rfl, split⟩)

end

/-- A request, whether it fails or not, bears on a later one only by the names that it made known:
as long as none of these is taken up without it, the outcome is the same without it. -/
theorem outcome_without (document : Value) (requests : List Request) (removed : Request)
    (later : List Request) (request : Request)
    (spared : ∀ first next, first ++ [next] <+: later ++ [request] → ∀ name,
      (progressAfter document {} (requests ++ [removed])).knows name = true →
      (progressAfter document {} requests).knows name = false →
      ¬TakesUp document (progressAfter document {} (requests ++ first)) next name) :
    outcome document (progressAfter document {} (requests ++ removed :: later)) request =
      outcome document (progressAfter document {} (requests ++ later)) request := by
  let before := progressAfter document {} requests
  let after := progressAfter document {} (requests ++ [removed])
  let added : Set String := { name | after.knows name = true ∧ before.knows name = false }
  have kept : Keeps before after := by
    rw [show after = progressAfter document before [removed] from progressAfter_append ..]
    exact keeps_progressAfter document before [removed]
  have apart : Apart added before after := by
    refine ⟨kept.pending, fun name free => ?_⟩
    cases known : Entries.get? (· == ·) name before.named with
    | some shape => exact kept.named name shape known
    | none =>
      refine Option.not_isSome_iff_eq_none.mp fun now => free ⟨now, ?_⟩
      rw [Progress.knows, known]
      rfl
  have spared {first : List Request} {next : Request}
      (split : first ++ [next] <+: later ++ [request]) {name : String} (member : name ∈ added) :
      ¬TakesUp document (progressAfter document before first) next name := by
    rw [← progressAfter_append]
    exact spared first next split name member.1 member.2
  have along : Apart added (progressAfter document before later)
      (progressAfter document after later) :=
    progressAfter_apart apart fun first next split name =>
      spared (split.trans (List.prefix_append later [request]))
  rw [List.append_cons, progressAfter_append document {} (requests ++ [removed]) later,
    progressAfter_append document {} requests later]
  exact (outcome_apart along fun name => spared (List.prefix_refl _)).1

theorem outcome_convert (document : Value) (progress : Progress) (schema : Value) :
    outcome document progress (.convert schema) =
      ((shapeOf document schema).run progress).1.map .shape := by
  rw [outcome, answer, answerBy, Conversion.run_bind]
  rcases (shapeOf document schema).run progress with ⟨failure | shape, after⟩ <;> rfl

theorem mem_keys_of_get? {entries : List (String × Shape)} {name : String}
    (found : (Entries.get? (· == ·) name entries).isSome = true) :
    name ∈ entries.map Prod.fst := by
  induction entries with
  | nil => cases found
  | cons entry entries ih =>
    rw [Entries.get?] at found
    split at found
    next same => exact List.mem_cons.mpr (.inl (beq_iff_eq.mp same).symm)
    next => exact List.mem_cons_of_mem _ (ih found)

/-- The conversion of A fails. Neither what comes next nor C takes up B, which has become known. -/
theorem outcome_without_torn :
    (outcome torn {} (.convert (referTo "A"))).isOk = false ∧
      (outcome torn (progressAfter torn {} [.convert (referTo "Missing")])
        (.convert (referTo "C"))).isOk = true ∧
      outcome torn (progressAfter torn {} [.convert (referTo "A"), .convert (referTo "Missing")])
          (.convert (referTo "C")) =
        outcome torn (progressAfter torn {} [.convert (referTo "Missing")])
          (.convert (referTo "C")) := by
  have added : (progressAfter torn {} [.convert (referTo "A")]).named.map Prod.fst = ["B"] := by
    decide +kernel
  refine ⟨by decide +kernel, by decide +kernel, outcome_without torn [] (.convert (referTo "A"))
    [.convert (referTo "Missing")] (.convert (referTo "C")) fun first next split name known _ => ?_⟩
  have member := mem_keys_of_get? known
  rw [List.nil_append, added] at member
  obtain rfl := List.mem_singleton.mp member
  match first, split with
  | [], split =>
    obtain ⟨rfl, _⟩ := List.cons_prefix_cons.mp split
    decide +kernel
  | [_], split =>
    obtain ⟨rfl, remainder⟩ := List.cons_prefix_cons.mp split
    obtain ⟨rfl, _⟩ := List.cons_prefix_cons.mp remainder
    decide +kernel
  | _ :: _ :: rest, split => simpa using split.length_le

/-- B, converted inside of A before the conversion of A fails, keeps the shape that it has got there.
Without A, its own conversion fails. -/
theorem trace_of_failure :
    outcome torn {} (.convert (referTo "A")) =
        .error (.description (.danglingPointer "/components/schemas/Missing")) ∧
      (∃ shape, outcome torn (progressAfter torn {} [.convert (referTo "A")])
        (.convert (referTo "B")) = .ok (.shape shape)) ∧
      outcome torn {} (.convert (referTo "B")) =
        .error (.description (.danglingPointer "/components/schemas/Missing")) := by
  have dangling (name : String)
      (failed : ((shapeOf torn (referTo name)).run {}).1.map (fun _ => ()) =
        .error (.description (.danglingPointer "/components/schemas/Missing"))) :
      outcome torn {} (.convert (referTo name)) =
        .error (.description (.danglingPointer "/components/schemas/Missing")) := by
    rw [outcome_convert, map_eq_error.mp failed]
    rfl
  have given : ((shapeOf torn (referTo "B")).run
      (progressAfter torn {} [.convert (referTo "A")])).1.isOk = true := by
    decide +kernel
  obtain ⟨shape, given⟩ := exists_eq_ok given
  refine ⟨dangling "A" (by decide +kernel), ⟨shape, ?_⟩, dangling "B" (by decide +kernel)⟩
  rw [outcome_convert, given]
  rfl

end ApiBinding.OpenApi
