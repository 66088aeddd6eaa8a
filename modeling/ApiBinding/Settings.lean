import ApiBinding.Dialect
import ApiBinding.MethodReference

/-!
The settings that shape a generated module. They exist in two forms: with flags and texts, by which
modules are generated, and with arbitrary values in these places, as a caller may give them.
-/

namespace ApiBinding

/-- Settings whose flags and free texts are of the given types. -/
structure SettingsOf (Flag Text : Type) where
  classNameTemplate : Text
  configurationType : Option String := none
  baseClass : Option String := none
  baseInterface : Option String := none
  injectTransport : Flag
  transportType : Option String := none
  useRequestFactory : Flag
  streamedResponses : List MethodReference := []
  streamedRequests : List MethodReference := []
  wrapResponses : Flag
  wrappedMethods : List MethodReference := []
  generateClasses : Flag
  suppressClasses : Flag
  generateInterfaces : Flag
  suppressInterfaces : Flag
  generateModels : Flag
  additionalImports : List Text := []
  targetVersion : String := "3.10"

abbrev Settings := SettingsOf Bool String

/-- Settings in which flags and free texts may be any values. -/
abbrev LooseSettings := SettingsOf Value Value

def SettingsOf.standard {Flag Text : Type} (flag : Bool → Flag) (text : String → Text) :
    SettingsOf Flag Text where
  classNameTemplate := text "\x7btag\x7dClient"
  injectTransport := flag true
  useRequestFactory := flag false
  wrapResponses := flag false
  generateClasses := flag true
  suppressClasses := flag false
  generateInterfaces := flag false
  suppressInterfaces := flag false
  generateModels := flag true

inductive Setting where
  | classNameTemplate
  | configurationType
  | baseClass
  | baseInterface
  | injectTransport
  | transportType
  | useRequestFactory
  | streamedResponses
  | streamedRequests
  | wrapResponses
  | wrappedMethods
  | generateClasses
  | suppressClasses
  | generateInterfaces
  | suppressInterfaces
  | generateModels
  | additionalImports
  | targetVersion
deriving DecidableEq

namespace Setting

/-- All settings, in the order in which they are checked. -/
def all : List Setting :=
  [.classNameTemplate, .configurationType, .baseClass, .baseInterface, .injectTransport,
    .transportType, .useRequestFactory, .streamedResponses, .streamedRequests, .wrapResponses,
    .wrappedMethods, .generateClasses, .suppressClasses, .generateInterfaces,
    .suppressInterfaces, .generateModels, .additionalImports, .targetVersion]

def key : Setting → String
  | .classNameTemplate => "class_name_template"
  | .configurationType => "configuration_class_name"
  | .baseClass => "base_class_name"
  | .baseInterface => "base_interface_name"
  | .injectTransport => "inject_transport"
  | .transportType => "custom_transport_type_name"
  | .useRequestFactory => "use_request_factory_method"
  | .streamedResponses => "large_array_response_methods"
  | .streamedRequests => "large_array_request_methods"
  | .wrapResponses => "wrap_responses"
  | .wrappedMethods => "wrap_response_methods"
  | .generateClasses => "generate_classes"
  | .suppressClasses => "suppress_class_output"
  | .generateInterfaces => "generate_interfaces"
  | .suppressInterfaces => "suppress_interface_output"
  | .generateModels => "generate_models"
  | .additionalImports => "additional_imports"
  | .targetVersion => "target_python"

/-- The other name by which entries may give a setting. -/
def otherKey : Setting → String
  | .classNameTemplate => "classNameTemplate"
  | .configurationType => "configurationClassName"
  | .baseClass => "baseClassName"
  | .baseInterface => "baseInterfaceName"
  | .injectTransport => "injectTransport"
  | .transportType => "customTransportTypeName"
  | .useRequestFactory => "useRequestFactoryMethod"
  | .streamedResponses => "largeArrayResponseMethods"
  | .streamedRequests => "largeArrayRequestMethods"
  | .wrapResponses => "wrapResponses"
  | .wrappedMethods => "wrapResponseMethods"
  | .generateClasses => "generateClasses"
  | .suppressClasses => "suppressClassOutput"
  | .generateInterfaces => "generateInterfaces"
  | .suppressInterfaces => "suppressInterfaceOutput"
  | .generateModels => "generateModels"
  | .additionalImports => "additionalImports"
  | .targetVersion => "targetPython"

def ofKey? (name : String) : Option Setting :=
  all.find? fun setting => setting.key == name

def named? (name : String) : Option Setting :=
  all.find? fun setting => setting.key == name || setting.otherKey == name

end Setting

namespace Settings

def dialect (settings : Settings) : Except Failure Dialect :=
  Dialect.ofText settings.targetVersion

def standard : Settings := SettingsOf.standard id id

def clientNameFor (template tag : String) : String :=
  let part := if tag = "" then "" else Identifier.ofRaw .type tag
  Identifier.ofRaw .type (Text.replaced "\x7btag\x7d" part template)

def clientName (settings : Settings) (tag : String) : String :=
  clientNameFor settings.classNameTemplate tag

end Settings

end ApiBinding
