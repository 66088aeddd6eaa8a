import ApiBinding.Settings.Check
import ApiBinding.Value.Use

/-!
Settings given one by one with any values. No kind of value is asked for beyond what the checks
themselves need, so that flags and texts keep the values given.
-/

namespace ApiBinding.LooseSettings

def given? (entries : List (Scalar × Value)) (setting : Setting) : Option Value :=
  Entries.get? Scalar.same (.text setting.key) entries

/-- A type name given for a setting, which a value other than a text cannot be. -/
def typeName (entries : List (Scalar × Value)) (setting : Setting) :
    Except Failure (Option String) :=
  match given? entries setting with
  | none => .ok none
  | some .null => .ok none
  | some (.text s) => do
    Setting.checkTypeName setting (some s)
    return some s
  | some _ => .error (.misuse .wrongKind)

def version (entries : List (Scalar × Value)) : Except Failure String :=
  match given? entries .targetVersion with
  | none => .ok "3.10"
  | some (.text s) => do
    Setting.checkVersion s
    return s
  | some _ => .error (.misuse .wrongKind)

def references (entries : List (Scalar × Value)) (setting : Setting) :
    Except Failure (List MethodReference) :=
  match given? entries setting with
  | none => .ok []
  | some v => do MethodReference.setOf (← v.elements)

def isKnown : Scalar → Bool
  | .text name => (Setting.ofKey? name).isSome
  | _ => false

/-- The settings given by entries under the names of settings, the others being the default. -/
def ofEntries (entries : List (Scalar × Value)) : Except Failure LooseSettings := do
  if !entries.all (isKnown ·.1) then throw (.misuse .wrongKind)
  let standard : LooseSettings := SettingsOf.standard .bool .text
  let streamedResponses ← references entries .streamedResponses
  let streamedRequests ← references entries .streamedRequests
  let wrappedMethods ← references entries .wrappedMethods
  let additionalImports ← ((given? entries .additionalImports).getD (.list [])).elements
  let template := (given? entries .classNameTemplate).getD standard.classNameTemplate
  Setting.checkTemplate (← template.holds "\x7btag\x7d")
  let configurationType ← typeName entries .configurationType
  let baseClass ← typeName entries .baseClass
  let baseInterface ← typeName entries .baseInterface
  let transportType ← typeName entries .transportType
  let targetVersion ← version entries
  let flag (setting : Setting) (default : Value) : Value := (given? entries setting).getD default
  return {
    classNameTemplate := template
    configurationType, baseClass, baseInterface, transportType
    streamedResponses, streamedRequests, wrappedMethods
    additionalImports, targetVersion
    injectTransport := flag .injectTransport standard.injectTransport
    useRequestFactory := flag .useRequestFactory standard.useRequestFactory
    wrapResponses := flag .wrapResponses standard.wrapResponses
    generateClasses := flag .generateClasses standard.generateClasses
    suppressClasses := flag .suppressClasses standard.suppressClasses
    generateInterfaces := flag .generateInterfaces standard.generateInterfaces
    suppressInterfaces := flag .suppressInterfaces standard.suppressInterfaces
    generateModels := flag .generateModels standard.generateModels
  }

/-- The name of the client class for a tag, for which the template has to be a text. -/
def clientName (settings : LooseSettings) (tag : String) : Except Failure String :=
  match settings.classNameTemplate with
  | .text template => .ok (Settings.clientNameFor template tag)
  | _ => .error (.misuse .noMember)

end ApiBinding.LooseSettings
