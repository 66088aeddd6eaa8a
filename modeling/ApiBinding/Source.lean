import ApiBinding.FileName
import ApiBinding.Generation
import ApiBinding.Json
import ApiBinding.Url
import ApiBinding.Yaml

/-!
Sources of documents and settings: entries that are given, or the text of a file or a URL.
-/

namespace ApiBinding

inductive Source where
  | given (entries : List (Scalar × Value))
  | named (name : String)

namespace Source

def ofFileName (name : String) : Source := .named (FileName.normal name)

/-- A text and the ending of the name under which it was found. -/
structure Content where
  text : String
  extension : String
deriving DecidableEq

def decoded (bytes : ByteArray) : Except Failure String :=
  match String.fromUTF8? bytes with
  | some text => .ok text
  | none => .error (.misuse .encoding)

/-- What a URL holds; there are no bytes if it cannot be reached. -/
def fetched (purpose : Purpose) (name : String) (url : Url) (bytes : Option ByteArray) :
    Except Failure Content :=
  match bytes with
  | some bytes => do return ⟨← decoded bytes, url.extension⟩
  | none => .error (.source purpose (.unreachable name))

/-- What a file holds, with line feeds for all line ends; there are no bytes if it is missing. -/
def opened (purpose : Purpose) (name : String) (bytes : Option ByteArray) :
    Except Failure Content :=
  let path := FileName.normal name
  if !FileName.isSpelled name then .error (.misuse .loneHalf)
  else if name.toList.contains '\x00' then .error (.misuse .numeral)
  else if FileName.isTooLong name then .error (.source purpose (.unreadable path .longName))
  else if FileName.isDirectory name then .error (.source purpose (.unreadable path .directory))
  else
    match bytes with
    | some bytes => do
      let text := String.ofList (Text.withLineFeeds (← decoded bytes).toList)
      return ⟨text, FileName.extension name⟩
    | none => .error (.source purpose (.unreadable path .missing))

def content (purpose : Purpose) (name : String) (bytes : Option ByteArray) :
    Except Failure Content := do
  let url ← Url.parse name
  if url.isWeb then fetched purpose name url bytes else opened purpose name bytes

def yamlValue (malformed : Failure) (text : String) : Except Failure Value :=
  match Yaml.read text with
  | .ok v => .ok v
  | .error .malformed => .error malformed
  | .error (.misuse kind) => .error (.misuse kind)

/-- The value that a text gives: as YAML if the ending says so, else as JSON or, failing that, as
YAML. -/
def value (malformed : Failure) (content : Content) : Except Failure Value :=
  if [".yaml", ".yml"].contains content.extension then yamlValue malformed content.text
  else
    match Json.read content.text with
    | .ok v => .ok v
    | .error .malformed => yamlValue malformed content.text
    | .error .longNumeral => .error (.misuse .numeral)

def map (purpose : Purpose) (bytes : Option ByteArray) : Source → Except Failure Value
  | .given entries => .ok (.map entries)
  | .named name => do
    let content ← content purpose name bytes
    let v ← value (.source purpose (.malformed name)) content
    if v.isMap then return v else throw (.source purpose (.noMap name))

/-- The document of a source, which is of a supported version. -/
def document (bytes : Option ByteArray) (source : Source) : Except Failure Value := do
  let document ← source.map .description bytes
  OpenApi.checkVersion document
  return document

def description (bytes : Option ByteArray) (source : Source) : Client.Report Description :=
  match source.document bytes with
  | .error failure => ⟨.error failure, []⟩
  | .ok document => describeDocument document

def settings (bytes : Option ByteArray) (source : Source) : Except Failure Settings := do
  Settings.ofEntries (← (← source.map .settings bytes).entries)

end Source

end ApiBinding
