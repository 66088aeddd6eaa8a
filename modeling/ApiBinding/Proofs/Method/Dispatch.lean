import ApiBinding.Proofs.Method.Case
import ApiBinding.Proofs.Method.Handler
import ApiBinding.Proofs.Method.Making
import ApiBinding.Proofs.Number.Numeral
import ApiBinding.Proofs.Shape

/-!
What a method does on each status that it may receive: the response that is declared for the status
handles it, and of several the first.
-/

namespace ApiBinding

/-- What a response is declared for: one status, a hundred of them, or whatever is not declared. -/
inductive Coverage where
  | code (value : Nat)
  | hundred (digit : Nat)
  | others
deriving DecidableEq

namespace Coverage

/-- What a status stands for that is three digits, a digit and `XX`, or the default. -/
def ofText? (status : String) : Option Coverage :=
  if status = "default" then some .others
  else
    match status.toList with
    | [a, 'X', 'X'] => if a.isDigit then some (.hundred (Digits.decimal [a])) else none
    | [a, b, c] =>
      if a.isDigit && b.isDigit && c.isDigit then some (.code (Digits.decimal [a, b, c])) else none
    | _ => none

def includes : Coverage → Int → Bool
  | .code value, status => status == value
  | .hundred digit, status => status / 100 == digit
  | .others, _ => false

/-- The writings of a coverage. -/
inductive Writes (status : String) : Coverage → Prop
  | code {a b c : Char} (digits : ∀ d ∈ status.toList, d.isDigit = true)
      (text : status.toList = [a, b, c]) : Writes status (.code (Digits.decimal [a, b, c]))
  | hundred {a : Char} (digit : a.isDigit = true) (text : status.toList = [a, 'X', 'X']) :
      Writes status (.hundred (Digits.decimal [a]))
  | others (same : status = "default") : Writes status .others

variable {status : String} {coverage : Coverage}

theorem writes_of_ofText? (h : ofText? status = some coverage) : Writes status coverage := by
  unfold ofText? at h
  split at h
  next default =>
    cases h
    exact .others default
  next =>
    split at h
    next a text =>
      split at h
      next digit =>
        cases h
        exact .hundred digit text
      next => cases h
    next a b c _ text =>
      split at h
      next digits =>
        cases h
        exact .code (by simpa [text, and_assoc] using digits) text
      next => cases h
    next => cases h

theorem ofText?_eq_others : ofText? status = some .others ↔ status = "default" := by
  constructor
  · intro h
    cases writes_of_ofText? h with
    | others same => exact same
  · intro h
    rw [ofText?, if_pos h]

theorem decimal_digit {a : Char} (digit : a.isDigit = true) :
    Digits.decimal [a] = a.toNat - 48 := by
  simp [Digits.decimal, Digits.inBase, Numeral.hexValue?_of_isDigit digit]

/-- The condition of a case holds exactly of the statuses that its status text stands for. -/
theorem Writes.test (h : Writes status coverage) (coded : status ≠ "default") :
    ∃ test, StatusTest.ofText? status = some test ∧
      ∀ s, Handler.holds? (test.condition ++ ":") s = some (coverage.includes s) := by
  cases h with
  | @code a b c digits text =>
    refine ⟨_, ?_, fun s => Handler.holds?_code _ s⟩
    have read := Numeral.int?_digits (by rintro rfl; simp at text) digits
      (by simp [text, Numeral.digitLimit])
    have other : b ≠ 'X' := Numeral.ne_of_isDigit (digits b (by simp [text])) (by decide)
    unfold StatusTest.ofText?
    rw [read, text]
    split
    next here => simp [other] at here
    next => rfl
  | @hundred a digit text =>
    refine ⟨.hundred (Digits.decimal [a] * 100), ?_, fun s => ?_⟩
    · simp [StatusTest.ofText?, text, Numeral.textDigitValue?_of_isDigit digit, decimal_digit digit]
    · rw [Handler.holds?_hundred, includes, Option.some_inj, Bool.eq_iff_iff]
      simp only [Bool.and_eq_true, decide_eq_true_eq, beq_iff_eq]
      omega
  | others same => exact absurd same coded

/-- Only a success is declared for a status from 200 to 299. -/
theorem Writes.head? (h : Writes status coverage) {s : Int} (covers : coverage.includes s = true)
    (low : 200 ≤ s) (high : s < 300) : status.toList.head? = some '2' := by
  have two (a : Char) (same : a.toNat = 50) : a = '2' := Char.toNat_inj.mp same
  cases h with
  | @code a b c digits text =>
    simp only [includes, beq_iff_eq, Digits.decimal, Digits.inBase, List.foldl_cons, List.foldl_nil,
      Numeral.hexValue?_of_isDigit (digits a (by simp [text])),
      Numeral.hexValue?_of_isDigit (digits b (by simp [text])),
      Numeral.hexValue?_of_isDigit (digits c (by simp [text])), Option.getD_some] at covers
    have ha := Numeral.toNat_of_isDigit (digits a (by simp [text]))
    have hb := Numeral.toNat_of_isDigit (digits b (by simp [text]))
    have hc := Numeral.toNat_of_isDigit (digits c (by simp [text]))
    rw [text, List.head?_cons, two a (by omega)]
  | @hundred a digit text =>
    rw [includes, beq_iff_eq, decimal_digit digit] at covers
    rw [text, List.head?_cons, two a (by omega)]
  | others same => cases covers

end Coverage

/-- What the response is declared for. -/
def Response.coverage? (response : Response) : Option Coverage :=
  Coverage.ofText? response.statusKey

namespace StatusCase

variable {mode : ResponseMode} {style : TypeHint.Style}

/-- Whether the case handles a status that no case before it handles. -/
def handles (status : Int) (c : StatusCase) : Bool :=
  c.status == "default" || (Coverage.ofText? c.status).any (·.includes status)

theorem lines_eq_ok {c : StatusCase} {coverage : Coverage} (coded : c.status ≠ "default")
    (covers : Coverage.ofText? c.status = some coverage) :
    ∃ condition,
      c.lines mode style = .ok (("            if " ++ condition)
        :: (c.statements mode style).map ("                " ++ ·)) ∧
      ∀ status, Handler.holds? condition status = some (c.handles status) := by
  obtain ⟨test, read, holds⟩ := (Coverage.writes_of_ofText? covers).test coded
  refine ⟨test.condition ++ ":", ?_, fun status => ?_⟩
  · simp [lines, coded, read, String.append_assoc]
  · simp [holds, handles, coded, covers]

end StatusCase

def fallbackLines (cases : List StatusCase) : List String :=
  if cases.any (·.status == "default") then [] else Handler.unexpected.map ("            " ++ ·)

/-- The chain of cases runs the statements of the first case that handles the status. -/
theorem running_chain (mode : ResponseMode) (style : TypeHint.Style) {cases : List StatusCase}
    (readable : ∀ c ∈ cases, (Coverage.ofText? c.status).isSome = true)
    (last : ∀ c ∈ cases.dropLast, c.status ≠ "default")
    (fails : ∀ c ∈ cases, c.status = "default" → c.action = .failDeclared) :
    ∃ caseLines, cases.mapM (fun c => c.lines mode style) = .ok caseLines ∧
      Handler.block (caseLines.flatten ++ fallbackLines cases) = [] ∧
      ∀ status, Handler.running status (caseLines.flatten ++ fallbackLines cases) =
        some (((cases.find? (·.handles status)).map fun c => c.statements mode style).getD
          Handler.unexpected) := by
  induction cases with
  | nil =>
    exact ⟨[], rfl, Handler.standAlone_unexpected.block_eq,
      Handler.standAlone_unexpected.running_eq⟩
  | cons c cases ih =>
    by_cases default : c.status = "default"
    · obtain rfl : cases = [] := by
        by_contra more
        exact last c (by simp [List.dropLast_cons_of_ne_nil more]) default
      have alone := Handler.standAlone_of_failDeclared (fails c (by simp) default) mode style
      refine ⟨[(c.statements mode style).map ("            " ++ ·)], ?_, ?_, fun status => ?_⟩
      · simp [StatusCase.lines, default]
      · simpa [fallbackLines, default] using alone.block_eq
      · simpa [fallbackLines, default, StatusCase.handles] using alone.running_eq status
    · obtain ⟨coverage, covers⟩ := Option.isSome_iff_exists.mp (readable c (by simp))
      obtain ⟨condition, lined, holds⟩ := StatusCase.lines_eq_ok default covers
      obtain ⟨caseLines, made, ends, runs⟩ := ih (fun d hd => readable d (by simp [hd]))
        (fun d hd => last d (by
          cases cases with
          | nil => cases hd
          | cons => simp [hd]))
        (fun d hd => fails d (by simp [hd]))
      have fallback : fallbackLines (c :: cases) = fallbackLines cases := by
        simp [fallbackLines, default]
      refine ⟨_ :: caseLines, by rw [List.mapM_cons, lined, made]; rfl, ?_, fun status => ?_⟩
      · simp [Handler.block, Handler.rest?_inner]
      · rw [fallback, List.flatten_cons, List.append_assoc,
          Handler.running_case status (holds status) (Handler.leaves_statements c mode style) ends,
          List.find?_cons]
        cases c.handles status with
        | true => rfl
        | false => exact runs status

/-- What is due on a status. -/
inductive Handling where
  | declared (response : Response)
  | nothing
  | unexpected

/-- The statements that a handling comes to; a declared response has those of its case. -/
def Handling.statements (mode : ResponseMode) (style : TypeHint.Style) :
    Handling → Except Failure (List String)
  | .declared response => do
    let c ← Operation.caseOf mode response
    return c.statements mode style
  | .nothing => .ok ["return " ++ wrappedText "None" mode]
  | .unexpected => .ok Handler.unexpected

namespace Operation

/-- What is due on a status: the first response that is declared for it, else nothing if the status
is a success and no success is declared, else the default response, if there is one. -/
def handling (operation : Operation) (status : Int) : Handling :=
  match operation.responses.find? fun response =>
      response.coverage?.any (·.includes status) with
  | some response => .declared response
  | none =>
    if operation.successes.isEmpty ∧ 200 ≤ status ∧ status < 300 then .nothing
    else
      match operation.responses.find? (·.coverage? == some .others) with
      | some response => .declared response
      | none => .unexpected

section

variable {mode : ResponseMode}

/-- Looking for a response by its status finds the response of the case that is found so. -/
theorem find?_declared {responses : List Response} {declared : List StatusCase}
    (given : List.Forall₂ (fun response c => caseOf mode response = .ok c)
      (distinctStatuses responses) declared) (wanted : String → Bool) :
    Option.Rel (fun response c => caseOf mode response = .ok c)
      (responses.find? (wanted ·.statusKey)) (declared.find? (wanted ·.status)) := by
  rw [← Entries.find?_firsts Response.statusKey (by intro a b same; rw [same])]
  change Option.Rel _ ((distinctStatuses responses).find? _) _
  generalize distinctStatuses responses = different at given ⊢
  induction given with
  | nil => exact .none
  | @cons response c _ _ here _ ih =>
    rw [List.find?_cons, List.find?_cons, (caseOf_eq_ok here).status_eq]
    cases wanted response.statusKey with
    | true => exact .some here
    | false => exact ih

/-- No success is implied where a response is declared for a success. -/
theorem not_implied_of_covered {operation : Operation} {response : Response} {status : Int}
    (found : operation.responses.find? (fun response =>
      (Coverage.ofText? response.statusKey).any (·.includes status)) = some response) :
    ¬(operation.successes.isEmpty = true ∧ 200 ≤ status ∧ status < 300) := by
  rintro ⟨none, low, high⟩
  have covered : (Coverage.ofText? response.statusKey).any (·.includes status) = true := by
    simpa using List.find?_some found
  obtain ⟨coverage, writes, covers⟩ := (Option.any_eq_true _ _).mp covered
  have two := (Coverage.writes_of_ofText? writes).head? covers low high
  have success := Response.head?_statusKey.mp two
  have none : operation.successes = [] := by simpa using none
  exact List.filter_eq_nil_iff.mp none response (List.mem_of_find?_eq_some found) success

theorem find?_coded (declared : List StatusCase) (status : Int) :
    (declared.filter fun c => !(c.status == "default")).find? (·.handles status) =
      declared.find? fun c => (Coverage.ofText? c.status).any (·.includes status) := by
  rw [List.find?_filter]
  congr 1
  funext c
  by_cases default : c.status = "default"
  · simp [default, StatusCase.handles, Coverage.ofText?, Coverage.includes]
  · simp [default, StatusCase.handles]

theorem find?_default (declared : List StatusCase) (status : Int) :
    (declared.filter fun c => c.status == "default").find? (·.handles status) =
      declared.find? fun c => Coverage.ofText? c.status == some .others := by
  rw [List.find?_filter]
  congr 1
  funext c
  by_cases default : c.status = "default"
  · simp [default, StatusCase.handles, Coverage.ofText?]
  · simp [default, Coverage.ofText?_eq_others]

theorem find?_implied (operation : Operation) (status : Int) :
    operation.impliedCases.find? (·.handles status) =
      if operation.successes.isEmpty ∧ 200 ≤ status ∧ status < 300 then
        some { status := "2XX", action := .returnNothing } else none := by
  have range : Coverage.ofText? "2XX" = some (.hundred 2) := by decide
  have inside : (status / 100 == 2) = decide (200 ≤ status ∧ status < 300) := by
    rw [Bool.eq_iff_iff, beq_iff_eq, decide_eq_true_iff]
    omega
  unfold impliedCases
  cases operation.successes.isEmpty with
  | false => simp
  | true =>
    by_cases success : 200 ≤ status ∧ status < 300
    · simp [StatusCase.handles, range, Coverage.includes, inside, success]
    · simp [StatusCase.handles, range, Coverage.includes, inside, success]

/-- The case that handles a status has the statements that are due on it. -/
theorem find?_cases {operation : Operation} {cases : List StatusCase}
    (cased : operation.cases mode = .ok cases) (style : TypeHint.Style) (status : Int) :
    (operation.handling status).statements mode style =
      .ok (((cases.find? (·.handles status)).map fun c => c.statements mode style).getD
        Handler.unexpected) := by
  obtain ⟨declared, given, rfl⟩ := exists_declared cased
  have covered := find?_declared given fun key => (Coverage.ofText? key).any (·.includes status)
  have others := find?_declared given fun key => Coverage.ofText? key == some .others
  rw [List.find?_append, List.find?_append, find?_coded, find?_default, find?_implied, handling]
  unfold Response.coverage?
  generalize found : operation.responses.find? (fun response =>
    (Coverage.ofText? response.statusKey).any (·.includes status)) = response at covered ⊢
  generalize declared.find? (fun c =>
    (Coverage.ofText? c.status).any (·.includes status)) = c at covered ⊢
  generalize operation.responses.find? (fun response =>
    Coverage.ofText? response.statusKey == some .others) = fallback at others ⊢
  generalize declared.find? (fun c => Coverage.ofText? c.status == some .others) = d at others ⊢
  cases covered with
  | @some response c made =>
    have declared : ¬(operation.successes.isEmpty = true ∧ 200 ≤ status ∧ status < 300) :=
      not_implied_of_covered found
    simp only [if_neg declared]
    simp [Handling.statements, made]
  | none =>
    by_cases nothing : operation.successes.isEmpty = true ∧ 200 ≤ status ∧ status < 300
    · simp only [if_pos nothing]
      rfl
    · simp only [if_neg nothing]
      cases others with
      | some made => simp [Handling.statements, made]
      | none => rfl

end

variable {operation : Operation} {settings : Settings} {method : Method}

theorem coverage?_of_case {mode : ResponseMode} {cases : List StatusCase}
    (cased : operation.cases mode = .ok cases)
    (standard : ∀ response ∈ operation.responses, response.coverage?.isSome = true) :
    ∀ c ∈ cases, (Coverage.ofText? c.status).isSome = true := by
  obtain ⟨declared, given, rfl⟩ := cases_eq_ok cased
  intro c hc
  rcases mem_cases_iff.mp hc with ⟨_, rfl⟩ | hc
  · decide
  · obtain ⟨response, hresponse, gives⟩ := exists_of_forall₂ given hc
    rw [gives.status_eq]
    exact standard response ((Entries.distinct_sublist _ _).subset hresponse)

theorem failDeclared_of_default {mode : ResponseMode} {cases : List StatusCase}
    (cased : operation.cases mode = .ok cases) :
    ∀ c ∈ cases, c.status = "default" → c.action = .failDeclared := by
  obtain ⟨declared, given, rfl⟩ := cases_eq_ok cased
  intro c hc default
  rcases mem_cases_iff.mp hc with ⟨_, rfl⟩ | hc
  · exact absurd default (by decide)
  · obtain ⟨response, _, gives⟩ := exists_of_forall₂ given hc
    refine gives.fails (Bool.eq_false_iff.mpr fun success => ?_)
    rw [← Response.head?_statusKey, ← gives.status_eq, default] at success
    exact absurd success (by decide)

/-- The cases stand in a chain that runs on every status what is due on it. -/
theorem running_handling {mode : ResponseMode} {cases : List StatusCase}
    (cased : operation.cases mode = .ok cases)
    (standard : ∀ response ∈ operation.responses, response.coverage?.isSome = true)
    (style : TypeHint.Style) :
    ∃ chain,
      responseLines mode cases style = .ok (Handler.around chain) ∧
      ∀ status, ∃ statements,
        (operation.handling status).statements mode style = .ok statements ∧
        Handler.running status chain = some statements := by
  obtain ⟨caseLines, lined, _, runs⟩ := running_chain mode style
    (coverage?_of_case cased standard) (default_last cased) (failDeclared_of_default cased)
  refine ⟨caseLines.flatten ++ fallbackLines cases, ?_, fun status => ?_⟩
  · rw [responseLines, lined]
    simp [fallbackLines, Handler.unexpected, Handler.around]
  · exact ⟨_, find?_cases cased style status, runs status⟩

/-- On every status a method runs the statements that are due on it: those of the first response
that is declared for the status, in the order of declaration. -/
theorem first_declared_handles (made : operation.toMethod settings = .ok method)
    (standard : ∀ response ∈ operation.responses, response.coverage?.isSome = true) :
    ∃ cases result,
      method.steps.getLast? = some (.response method.responseMode cases result) ∧
      ∀ style, ∃ chain,
        responseLines method.responseMode cases style = .ok (Handler.around chain) ∧
        ∀ status, ∃ statements,
          (operation.handling status).statements method.responseMode style = .ok statements ∧
          Handler.running status chain = some statements := by
  obtain ⟨names, declared, result, cases, making⟩ := toMethod_eq_ok made
  exact ⟨cases, result, making.getLast?_steps, running_handling making.cased_by_mode standard⟩

def errorsOnly : Operation :=
  answering "Pet" "Find" [("404", .primitive .string false), ("4XX", .primitive .integer false)]

theorem first_declared_handles_errors :
    ∃ method cases result chain,
      errorsOnly.toMethod Settings.standard = .ok method ∧
      method.steps.getLast? = some (.response method.responseMode cases result) ∧
      responseLines method.responseMode cases (.inline (.ofVersion 3 12)) =
        .ok (Handler.around chain) ∧
      Handler.running 204 chain = some ["return None"] ∧
      Handler.running 500 chain = some Handler.unexpected := by
  obtain ⟨method, made⟩ : ∃ method, errorsOnly.toMethod Settings.standard = .ok method :=
    exists_eq_ok (by decide +kernel)
  have standard : ∀ response ∈ errorsOnly.responses, response.coverage?.isSome = true := by
    decide +kernel
  obtain ⟨cases, result, final, handled⟩ := first_declared_handles made standard
  obtain ⟨chain, lined, runs⟩ := handled (.inline (.ofVersion 3 12))
  obtain ⟨names, _, _, _, making⟩ := toMethod_eq_ok made
  have plain : method.responseMode = .plain := making.responseMode
  obtain ⟨empty, hempty, onEmpty⟩ := runs 204
  obtain ⟨raised, hraised, onRaised⟩ := runs 500
  rw [plain] at hempty hraised
  refine ⟨method, cases, result, chain, made, final, lined, ?_, ?_⟩
  · have nothing : errorsOnly.handling 204 = .nothing := rfl
    rw [nothing] at hempty
    cases hempty
    exact onEmpty
  · have unexpected : errorsOnly.handling 500 = .unexpected := rfl
    rw [unexpected] at hraised
    cases hraised
    exact onRaised

def codeAfterRange : Operation :=
  answering "Pet" "Get" [("2XX", .primitive .string false), ("200", .primitive .integer false)]

def rangeResponse : Response := { status := "2XX", type := some (.primitive .string false) }

def codeResponse : Response := { status := "200", type := some (.primitive .integer false) }

theorem handling_codeAfterRange (status : Int) :
    codeAfterRange.handling status = .declared rangeResponse ∨
      codeAfterRange.handling status = .unexpected := by
  have range : rangeResponse.coverage? = some (.hundred 2) := by decide
  have code : codeResponse.coverage? = some (.code 200) := by decide
  have responses : codeAfterRange.responses = [rangeResponse, codeResponse] := rfl
  have successes : codeAfterRange.successes.isEmpty = false := by decide
  by_cases success : status / 100 = 2
  · left
    simp [handling, responses, range, Coverage.includes, success]
  · right
    have other : status ≠ 200 := by omega
    simp [handling, responses, range, code, Coverage.includes, success, other, successes]

/-- A code that is declared after the range that contains it is never handled by its own case. -/
theorem code_unreachable_after_range :
    ∃ method cases result chain statements,
      codeAfterRange.toMethod Settings.standard = .ok method ∧
      method.steps.getLast? = some (.response method.responseMode cases result) ∧
      responseLines method.responseMode cases (.inline (.ofVersion 3 12)) =
        .ok (Handler.around chain) ∧
      codeResponse ∈ codeAfterRange.responses ∧ codeResponse.coverage? = some (.code 200) ∧
      (Handling.declared codeResponse).statements method.responseMode (.inline (.ofVersion 3 12))
        = .ok statements ∧
      ∀ status, Handler.running status chain ≠ some statements := by
  obtain ⟨method, made⟩ : ∃ method, codeAfterRange.toMethod Settings.standard = .ok method :=
    exists_eq_ok (by decide +kernel)
  obtain ⟨names, declared, result, cases, making⟩ := toMethod_eq_ok made
  have plain : method.responseMode = .plain := making.responseMode
  have cased : codeAfterRange.cases .plain = .ok cases := making.cased
  obtain ⟨chain, lined, runs⟩ := running_handling cased (by decide +kernel)
    (.inline (.ofVersion 3 12))
  obtain ⟨statements, own⟩ : ∃ statements, (Handling.declared codeResponse).statements .plain
      (.inline (.ofVersion 3 12)) = .ok statements := exists_eq_ok (by decide +kernel)
  refine ⟨method, cases, result, chain, statements, made, making.getLast?_steps, plain ▸ lined,
    .tail _ (.head _), by decide, plain ▸ own, fun status same => ?_⟩
  obtain ⟨others, hothers, ran⟩ := runs status
  obtain rfl : others = statements := Option.some.inj (ran.symm.trans same)
  rw [← own] at hothers
  rcases handling_codeAfterRange status with range | unexpected
  · rw [range] at hothers
    exact absurd (congrArg Except.toOption hothers) (by decide +kernel)
  · rw [unexpected] at hothers
    exact absurd (congrArg Except.toOption hothers) (by decide +kernel)

end Operation

end ApiBinding
