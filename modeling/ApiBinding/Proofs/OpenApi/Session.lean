import ApiBinding.Proofs.OpenApi.Unfinished

/-!
Requests to one document, one after the other, each with a result or a failure. What is known from
one request on stays known to all later ones, and what was answered once is answered again.
-/

namespace ApiBinding.OpenApi

/-- What can be asked of a document: the shape of a schema, the value that a chain of references
leads to, the value at a pointer, and the description. -/
inductive Request where
  | convert (schema : Value)
  | dereference (v : Value)
  | point (fragment : String)
  | describe

inductive Answer where
  | shape (shape : Shape)
  | value (v : Value)
  | description (description : Description)

/-- The answer to a request when schemas are converted in the given way. -/
def answerBy (convert : Value → Conversion Shape) (document : Value) : Request → Conversion Answer
  | .convert schema => return .shape (← convert schema)
  | .dereference v => return .value (← OpenApi.dereference document v)
  | .point fragment => return .value (← atFragment document fragment)
  | .describe => return .description (← describeBy convert document)

def answer (document : Value) (request : Request) : Conversion Answer :=
  answerBy (shapeOf document) document request

def openAnswer (document : Value) (request : Request) : Conversion Answer :=
  answerBy (openShape document) document request

/-- The progress after requests, whether they succeeded or not. -/
def progressAfter (document : Value) (progress : Progress) (requests : List Request) : Progress :=
  requests.foldl (fun progress request => ((answer document request).run progress).2) progress

/-- What comes of a request after others. -/
def outcome (document : Value) (progress : Progress) (request : Request) : Except Failure Answer :=
  ((answer document request).run progress).1

/-- The names of which a request begins to convert the target and does not come to its end. -/
def unfinished (document : Value) (progress : Progress) (request : Request) : List String :=
  ((openAnswer document request).run progress).2.pending

theorem Agreement.answerBy (agreement : Agreement) {document : Value}
    {convert convert' : Value → Conversion Shape}
    (converts : ∀ schema, agreement.holds (convert schema) (convert' schema)) (request : Request) :
    agreement.holds (answerBy convert document request)
      (OpenApi.answerBy convert' document request) := by
  cases request with
  | convert schema => exact agreement.bind (converts schema) fun _ => agreement.pure _
  | dereference v => exact agreement.lift fun _ => agreement.pure _
  | point fragment => exact agreement.lift fun _ => agreement.pure _
  | describe => exact agreement.bind (agreement.describeBy converts document) fun _ => agreement.pure _

theorem exposes_answer (document : Value) (request : Request) :
    Exposes (answer document request) (openAnswer document request) :=
  Exposes.agreement.answerBy (fun schema => exposes_openAt document _ [] schema) request

/-- Whether all that is known is known later on, and with the same shape. -/
def Extends (progress later : Progress) : Prop :=
  ∀ name shape, Entries.get? (· == ·) name progress.named = some shape →
    Entries.get? (· == ·) name later.named = some shape

/-- Whether a progress may follow from another: nothing that is known changes, and the same names
are pending. -/
structure Keeps (progress later : Progress) : Prop where
  pending : later.pending = progress.pending
  named : Extends progress later

theorem Keeps.of_warnings (progress : Progress) (warnings : List Warning) :
    Keeps progress { progress with warnings } := ⟨rfl, fun _ _ kept => kept⟩

theorem Keeps.refl (progress : Progress) : Keeps progress progress :=
  .of_warnings progress progress.warnings

theorem Keeps.trans {first second third : Progress} (h : Keeps first second)
    (h' : Keeps second third) : Keeps first third :=
  ⟨h'.pending.trans h.pending,
    fun name shape kept => h'.named name shape (h.named name shape kept)⟩

theorem steady_keeps (document : Value) : Steady document Keeps where
  refl := .refl
  trans := .trans
  ignored progress _ := .of_warnings progress _
  settled := by
    intro _ _ name progress _ fresh target kept
    refine ⟨?_, fun other shape known => ?_⟩
    · rw [pending_settle, kept.pending]
      exact List.erase_cons_head ..
    · have still := kept.named other shape known
      cases result : target.1 with
      | error failure => exact still
      | ok found =>
        show Entries.get? (· == ·) other (Entries.put (· == ·) name found target.2.named) = _
        have different : name ≠ other := by
          rintro rfl
          rw [fresh] at known
          cases known
        rw [Entries.get?_put, if_neg different]
        exact still

/-- Whether a conversion answers alike at any later time when no conversion is under way. -/
structure Recalls {α : Type} (conversion : Conversion α) : Prop where
  keeps : ∀ progress, Keeps progress (conversion.run progress).2
  again : ∀ {progress after a}, progress.pending = [] → conversion.run progress = (.ok a, after) →
    ∀ later, later.pending = [] → Extends after later →
      ∃ warnings, conversion.run later = (.ok a, { later with warnings })

section

variable {α β : Type}

theorem Recalls.bind {first : Conversion α} {next : α → Conversion β} (here : Recalls first)
    (rest : ∀ a, Recalls (next a)) : Recalls (first >>= next) := by
  constructor
  · intro progress
    have kept := here.keeps progress
    rcases ran : first.run progress with ⟨failure | a, middle⟩
    · rw [ran] at kept
      rwa [Conversion.run_bind_error ran]
    · rw [ran] at kept
      rw [Conversion.run_bind_ok ran]
      exact kept.trans ((rest a).keeps middle)
  · intro progress after b idle ran later still grown
    obtain ⟨a, middle, first', second⟩ := Conversion.run_bind_eq_ok ran
    have kept := here.keeps progress
    rw [first'] at kept
    have onward := (rest a).keeps middle
    rw [second] at onward
    have known : Extends middle later := fun name shape found =>
      grown name shape (onward.named name shape found)
    obtain ⟨warnings, again⟩ := here.again idle first' later still known
    obtain ⟨more, again'⟩ := (rest a).again (kept.pending.trans idle) second { later with warnings }
      still grown
    exact ⟨more, by rw [Conversion.run_bind_ok again, again']⟩

def Recalls.agreement : Agreement where
  holds first _ := Recalls first
  pure a := ⟨Keeps.refl,
    fun _ ran later _ _ => ⟨later.warnings, by cases ran; rfl⟩⟩
  fail failure := ⟨Keeps.refl, nofun⟩
  warn warning := ⟨fun progress => .of_warnings progress _,
    fun _ ran later _ _ => ⟨later.warnings ++ [warning], by cases ran; rfl⟩⟩
  bind here rest := here.bind rest

end

/-- A name has its shape from the first time on that it gives one while no conversion is under way.
-/
theorem Recalls.named {document : Value} {shapeOf : Converter} {trail : Trail}
    {reference name : String} (named : namedSchema? reference = some name)
    (keeps : ∀ progress,
      Keeps progress ((referenceShape document shapeOf trail reference).run progress).2) :
    Recalls (referenceShape document shapeOf trail reference) := by
  refine ⟨keeps, fun {progress after shape} idle ran later _ grown => ?_⟩
  -- With nothing pending, the name alone is no answer: what is given is kept under the name.
  have known : Entries.get? (· == ·) name after.named = some shape := by
    rw [run_referenceShape named] at ran
    split at ran
    next kept =>
      cases ran
      exact kept
    next =>
      rw [idle] at ran
      obtain ⟨given, rfl⟩ := Prod.mk.inj ran
      rw [given]
      exact (Entries.get?_put ..).trans (if_pos rfl)
  refine ⟨later.warnings, ?_⟩
  rw [run_referenceShape named, grown name shape known]

theorem recalls_shapeAt (document : Value) (depth : Nat) :
    ∀ trail schema, Recalls (shapeAt document depth trail schema) := by
  induction depth with
  | zero => exact fun _ _ => Recalls.agreement.fail _
  | succ depth ih =>
    intro trail schema
    show Recalls.agreement.holds _ (shapeAt document (depth + 1) trail schema)
    refine Recalls.agreement.stepWith ih (fun trail reference => ?_) trail schema
    cases named : namedSchema? reference with
    | none =>
      rw [referenceShape_of_none named]
      exact Recalls.agreement.unnamedShape ih trail reference
    | some name =>
      exact Recalls.named named fun progress => (steady_keeps document).referenceShape
        (fun trail schema => (ih trail schema).keeps) trail reference progress

theorem recalls_answer (document : Value) (request : Request) :
    Recalls (answer document request) :=
  show Recalls.agreement.holds _ (answer document request) from
  Recalls.agreement.answerBy (fun schema => recalls_shapeAt document _ [] schema) request

theorem progressAfter_append (document : Value) (progress : Progress)
    (first second : List Request) :
    progressAfter document progress (first ++ second) =
      progressAfter document (progressAfter document progress first) second :=
  List.foldl_append

theorem keeps_progressAfter (document : Value) (progress : Progress) (requests : List Request) :
    Keeps progress (progressAfter document progress requests) := by
  induction requests generalizing progress with
  | nil => exact .refl progress
  | cons request requests ih => exact ((recalls_answer document request).keeps progress).trans (ih _)

/-- After every request no conversion is under way; what was known before it is known with the same
shape, a name of which the conversion failed is not known, and an answer that was given is given
again after any further requests. A run that stays where it fails shows which names these are. -/
theorem requests_remembered (document : Value) (requests : List Request) (request : Request)
    (further : List Request) :
    let before := progressAfter document {} requests
    let after := progressAfter document {} (requests ++ [request])
    after.pending = [] ∧
      (∀ name shape, Entries.get? (· == ·) name before.named = some shape →
        Entries.get? (· == ·) name after.named = some shape) ∧
      (openAnswer document request).run before =
        (outcome document before request,
          { after with pending := unfinished document before request }) ∧
      (∀ name ∈ unfinished document before request, after.knows name = false) ∧
      ∀ a, outcome document before request = .ok a →
        outcome document (progressAfter document {} (requests ++ request :: further)) request =
          .ok a := by
  intro before after
  have idle : before.pending = [] := (keeps_progressAfter document {} requests).pending
  have ran : after = ((answer document request).run before).2 := progressAfter_append ..
  have kept := (recalls_answer document request).keeps before
  rw [← ran] at kept
  have exposed := exposes_answer document request
  have same := exposed.same before
  refine ⟨kept.pending.trans idle, kept.named, ?_, fun name member => ?_, fun a given => ?_⟩
  · rw [ran, outcome, unfinished, same]
    rfl
  · have knows : after.knows name =
        ((openAnswer document request).run before).2.knows name := by
      rw [ran, same]
      rfl
    rw [knows, Bool.eq_false_iff]
    intro known
    have waiting := ((exposed.halts before).unknown name member known).1
    rw [idle] at waiting
    cases waiting
  · have last : progressAfter document {} (requests ++ request :: further) =
        progressAfter document after further := by
      rw [ran]
      exact progressAfter_append ..
    rw [last]
    have later := keeps_progressAfter document after further
    obtain ⟨warnings, again⟩ := (recalls_answer document request).again idle
      (Prod.ext given rfl) _ (later.pending.trans (kept.pending.trans idle)) (ran ▸ later.named)
    rw [outcome, again]

/-- Two schemas that refer to each other, one of them also to a schema that is not there, and a
third one apart from these. -/
def torn : Value :=
  withSchemas [("A", objectWith [("b", referTo "B"), ("bad", referTo "Missing")]),
    ("B", objectWith [("a", referTo "A")]), ("C", objectWith [])]

/-- The conversion of A fails, and with it that of the schema that is missing. B is known from then
on and keeps its shape. -/
theorem requests_remembered_torn :
    unfinished torn {} (.convert (referTo "A")) = ["Missing", "A"] ∧
      (∀ name ∈ ["Missing", "A"],
        (progressAfter torn {} [.convert (referTo "A")]).knows name = false) ∧
      ∃ a, outcome torn (progressAfter torn {} [.convert (referTo "A")]) (.convert (referTo "B")) =
          .ok a ∧
        outcome torn (progressAfter torn {} [.convert (referTo "A"), .convert (referTo "B"),
          .convert (referTo "A")]) (.convert (referTo "B")) = .ok a := by
  have failed : unfinished torn {} (.convert (referTo "A")) = ["Missing", "A"] := by
    decide +kernel
  have answered : (outcome torn (progressAfter torn {} [.convert (referTo "A")])
      (.convert (referTo "B"))).isOk = true := by
    decide +kernel
  obtain ⟨a, given⟩ := exists_eq_ok answered
  have first := requests_remembered torn [] (.convert (referTo "A")) []
  have second := requests_remembered torn [.convert (referTo "A")] (.convert (referTo "B"))
    [.convert (referTo "A")]
  refine ⟨failed, fun name member => ?_, a, given, second.2.2.2.2 a given⟩
  exact first.2.2.2.1 name (failed ▸ member)

end ApiBinding.OpenApi
