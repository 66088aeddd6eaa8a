import ApiBinding.Method.OfOperation
import ApiBinding.Proofs.Declaration.Coverage

/-!
What making the method of an operation comes to: the parts it is made of when it succeeds, and the
failures in which it can end.
-/

namespace ApiBinding.Operation

open TypeHint (ofShape?)

def responseMode (operation : Operation) (settings : Settings) (names : Names) : ResponseMode :=
  .ofFlags (operation.streamsResponse settings names) (wrapsResponse settings names)

def sentBody (operation : Operation) (settings : Settings) (names : Names)
    (declared : List Argument) : RequestMode × List Step :=
  bodyPart (operation.streamsRequest settings names) operation.body?
    (argumentsIn .body (requiredFirst declared)).head?

/-- What a method has been made of: its names, its arguments in the order of declaration, the type
of its result and its cases. -/
structure Making (operation : Operation) (settings : Settings) (method : Method) (names : Names)
    (declared : List Argument) (result : TypeHint) (cases : List StatusCase) : Prop where
  named : operation.names settings = .ok names
  argued : argumentsFrom (.parameters names.client names.method)
    (operation.streamsRequest settings names) [] (usedParameters false operation.parameters)
      = .ok declared
  resulted : operation.resultHint (operation.responseMode settings names) = .ok result
  cased : operation.cases (operation.responseMode settings names) = .ok cases
  collected : Declaration.collected operation = .ok method.declarations
  name : method.name = names.method
  rawName : method.rawName = names.raw
  arguments : method.arguments = requiredFirst declared
  returnType : method.returnType = returnHint result (operation.responseMode settings names)
  responseMode : method.responseMode = operation.responseMode settings names
  requestMode : method.requestMode = (operation.sentBody settings names declared).1
  support : method.support = (operation.responseMode settings names).support
    ++ (if method.requestMode = .streamed then [.arrayStreamContent] else [])
  steps : method.steps =
    [.url operation.path (argumentsIn .path method.arguments)]
      ++ (if (argumentsIn .query method.arguments).isEmpty then []
        else [.query (argumentsIn .query method.arguments)])
      ++ [.headers (argumentsIn .header method.arguments) operation.accept
        (contentType operation.body?)]
      ++ (operation.sentBody settings names declared).2
      ++ [.request (Text.upper operation.method) settings.useRequestFactory
          (!(argumentsIn .query method.arguments).isEmpty)
          (argumentsIn .body method.arguments).head?.isSome,
        .send, .response (operation.responseMode settings names) cases result]

theorem toMethod_eq_ok {operation : Operation} {settings : Settings} {method : Method}
    (h : operation.toMethod settings = .ok method) :
    ∃ names declared result cases, Making operation settings method names declared result cases := by
  obtain ⟨names, named, h⟩ := bind_eq_ok.mp h
  obtain ⟨declared, argued, h⟩ := bind_eq_ok.mp h
  obtain ⟨result, resulted, h⟩ := bind_eq_ok.mp h
  obtain ⟨cases, cased, h⟩ := bind_eq_ok.mp h
  obtain ⟨declarations, collected, h⟩ := bind_eq_ok.mp h
  cases h
  exact ⟨names, declared, result, cases, named, argued, resulted, cased, collected, rfl, rfl, rfl,
    rfl, rfl, rfl, rfl, rfl⟩

namespace Making

variable {operation : Operation} {settings : Settings} {method : Method} {names : Names}
  {declared : List Argument} {result : TypeHint} {cases : List StatusCase}

/-- The last step of a method handles its response, by the cases that its mode gives. -/
theorem getLast?_steps (making : Making operation settings method names declared result cases) :
    method.steps.getLast? = some (.response method.responseMode cases result) := by
  rw [making.steps, List.getLast?_append, making.responseMode]
  rfl

theorem cased_by_mode (making : Making operation settings method names declared result cases) :
    operation.cases method.responseMode = .ok cases := by
  rw [making.responseMode]
  exact making.cased

end Making

theorem collected_of_toMethod {operation : Operation} {settings : Settings} {method : Method}
    (h : operation.toMethod settings = .ok method) :
    Declaration.collected operation = .ok method.declarations := by
  obtain ⟨_, _, _, _, making⟩ := toMethod_eq_ok h
  exact making.collected

end ApiBinding.Operation
