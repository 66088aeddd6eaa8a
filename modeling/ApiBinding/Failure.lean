import ApiBinding.Value

/-!
Why a run can fail and what it can warn about, with the wording of each.
-/

namespace ApiBinding

inductive SettingsProblem where
  | methodReference (text : String)
  | templateWithoutTag
  | typeName (setting : String) (text : String)
  | version (text : String)
  | unknown (key : Scalar)
  | twice (key : Scalar)
  | notMethodList (setting : String)
  | notFlag (setting : String)
  | notImportList
  | notText (setting : String)
deriving DecidableEq

inductive DescriptionProblem where
  | paths
  | pathItem (path : Scalar)
  | operation (method path : String)
  | parameterList
  | parameterKey (method path : String)
  | responses (method path : String)
  | referenceKind
  | circularReference (reference : String)
  | foreignReference (reference : String)
  | danglingPointer (fragment : String)
  | referenceTarget (reference : String)
  | versionMissing
  | versionUnsupported (version : String)
deriving DecidableEq

inductive Purpose where
  | description
  | settings
deriving DecidableEq

inductive FileProblem where
  | missing
  | directory
  | longName
deriving DecidableEq

inductive SourceProblem where
  | unreadable (path : String) (problem : FileProblem)
  | unreachable (url : String)
  | malformed (source : String)
  | noMap (source : String)
deriving DecidableEq

/-- Where two names were found to be one. -/
inductive NameScope where
  | parameters (client method : String)
  | methods (client : String)
  | clients
  | types
deriving DecidableEq

/-- A use of a value for which it is not made. -/
inductive Misuse where
  | wrongKind
  | noMember
  | missingEntry
  | pastEnd
  | numeral
  | overflow
  | encoding
  | loneHalf
  | endless
deriving DecidableEq

inductive Failure where
  | settings (problem : SettingsProblem)
  | description (problem : DescriptionProblem)
  | source (purpose : Purpose) (problem : SourceProblem)
  | collision (scope : NameScope) (name first second : String)
  | cancelled (method path : String)
  | misuse (kind : Misuse)
deriving DecidableEq

/-- What a run draws attention to without failing. -/
inductive Warning where
  | unmatchedReference (setting reference : String)
  | extraBody (client method : String) (name : Value)
  | notStreamableResponse (client method : String)
  | notStreamableRequest (client method : String)
  | skippedParameter (location name : Value) (method path : String)
  | ignoredMember (schema : Option String)

open Text (quoted)

def SettingsProblem.message : SettingsProblem → String
  | .methodReference text =>
    "Method reference must have the form 'Client.Method': " ++ quoted text
  | .templateWithoutTag => "class_name_template must contain '\x7btag\x7d'"
  | .typeName setting text => setting ++ " must be a (dotted) Python name: " ++ quoted text
  | .version text => "target_python must look like '3.10': " ++ quoted text
  | .unknown key => "Unknown setting: " ++ key.literal
  | .twice key => "Setting given twice: " ++ key.literal
  | .notMethodList setting => setting ++ " must be a list of 'Client.Method' strings"
  | .notFlag setting => setting ++ " must be a boolean"
  | .notImportList => "additional_imports must be a list of strings"
  | .notText setting => setting ++ " must be a string"

def DescriptionProblem.message : DescriptionProblem → String
  | .paths => "'paths' must be an object"
  | .pathItem path => "Path item for " ++ path.literal ++ " must be an object"
  | .operation method path => "Operation " ++ method ++ " " ++ path ++ " must be an object"
  | .parameterList => "'parameters' must be a list"
  | .parameterKey method path =>
    "Parameter of " ++ method ++ " " ++ path ++ " needs 'name' and 'in'"
  | .responses method path =>
    "Responses of " ++ method ++ " " ++ path ++ " must be an object"
  | .referenceKind => "$ref must be a string"
  | .circularReference reference => "Circular $ref: " ++ reference
  | .foreignReference reference => "Only local $ref values are supported: " ++ reference
  | .danglingPointer fragment => "Unresolvable $ref pointer: #" ++ fragment
  | .referenceTarget reference => "$ref target must be an object: " ++ reference
  | .versionMissing => "Missing or invalid 'openapi' field in document"
  | .versionUnsupported version => "Unsupported OpenAPI version: " ++ version

/-- The wording of a problem with a file, with the number by which it is known. -/
def FileProblem.message : FileProblem → String
  | .missing => "[Errno 2] No such file or directory: "
  | .directory => "[Errno 21] Is a directory: "
  | .longName => "[Errno 36] File name too long: "

def SourceProblem.message : SourceProblem → String
  | .unreadable path problem =>
    "Failed to read " ++ path ++ ": " ++ problem.message ++ quoted path
  | .unreachable url => "Failed to fetch URL: " ++ url
  | .malformed source => "Failed to parse " ++ source
  | .noMap source => "Document must be an object: " ++ source

def NameScope.label : NameScope → String
  | .parameters client method => "parameters of " ++ client ++ "." ++ method
  | .methods client => "methods of " ++ client
  | .clients => "client names"
  | .types => "type names"

/-- The wording of a failure; a misuse has none of its own. -/
def Failure.message? : Failure → Option String
  | .settings problem => some problem.message
  | .description problem => some problem.message
  | .source _ problem => some problem.message
  | .collision scope name first second =>
    some ("Name collision in " ++ scope.label ++ ": " ++ quoted first ++ ", " ++ quoted second
      ++ " all map to " ++ quoted name)
  | .cancelled method path =>
    some ("Generation cancelled before compiling " ++ method ++ " " ++ path)
  | .misuse _ => none

def Warning.message : Warning → String
  | .unmatchedReference setting reference =>
    setting ++ " lists " ++ reference ++ ", which matches no operation"
  | .extraBody client method name =>
    client ++ "." ++ method ++ " declares more than one body parameter; ignoring " ++ name.literal
  | .notStreamableResponse client method =>
    client ++ "." ++ method ++ " is listed for response streaming but does not return an array"
  | .notStreamableRequest client method =>
    client ++ "." ++ method ++ " is listed for request streaming but has no array body"
  | .skippedParameter location name method path =>
    "Skipping " ++ location.display ++ " parameter " ++ name.literal ++ " of " ++ method ++ " "
      ++ path
  | .ignoredMember schema =>
    "Ignoring non-object allOf member of "
      ++ (match schema with
        | some name => if name = "" then "an inline schema" else name
        | none => "an inline schema")

end ApiBinding
