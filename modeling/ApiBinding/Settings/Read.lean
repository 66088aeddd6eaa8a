import ApiBinding.Settings.Check
import ApiBinding.Value.Use

/-!
Settings read from entries, as a file gives them. Every entry must be known, given once and of the
right kind; the checks on the values come after all entries are read.
-/

namespace ApiBinding.Settings

/-- The elements of a value in the place of a list, for which a text cannot stand. -/
def items? : Value → Option (List Value)
  | .text _ => none
  | v => v.elements.toOption

def texts? (v : Value) : Option (List String) :=
  (items? v).bind fun items => items.mapM fun
    | .text s => some s
    | _ => none

def readReferences (setting : Setting) (v : Value) : Except Failure (List MethodReference) :=
  match texts? v with
  | some texts => MethodReference.setOf (texts.map Value.text)
  | none => .error (.settings (.notMethodList setting.key))

def readFlag (setting : Setting) : Value → Except Failure Bool
  | .bool b => .ok b
  | _ => .error (.settings (.notFlag setting.key))

def readText (setting : Setting) : Value → Except Failure String
  | .text s => .ok s
  | _ => .error (.settings (.notText setting.key))

def readTypeName (setting : Setting) : Value → Except Failure (Option String)
  | .null => .ok none
  | .text s => .ok (some s)
  | _ => .error (.settings (.notText setting.key))

def readImports (v : Value) : Except Failure (List String) :=
  match texts? v with
  | some texts => .ok texts
  | none => .error (.settings .notImportList)

def withValue (settings : Settings) (setting : Setting) (v : Value) : Except Failure Settings :=
  match setting with
  | .classNameTemplate => do return { settings with classNameTemplate := ← readText setting v }
  | .configurationType => do
    return { settings with configurationType := ← readTypeName setting v }
  | .baseClass => do return { settings with baseClass := ← readTypeName setting v }
  | .baseInterface => do return { settings with baseInterface := ← readTypeName setting v }
  | .injectTransport => do return { settings with injectTransport := ← readFlag setting v }
  | .transportType => do return { settings with transportType := ← readTypeName setting v }
  | .useRequestFactory => do return { settings with useRequestFactory := ← readFlag setting v }
  | .streamedResponses => do
    return { settings with streamedResponses := ← readReferences setting v }
  | .streamedRequests => do
    return { settings with streamedRequests := ← readReferences setting v }
  | .wrapResponses => do return { settings with wrapResponses := ← readFlag setting v }
  | .wrappedMethods => do return { settings with wrappedMethods := ← readReferences setting v }
  | .generateClasses => do return { settings with generateClasses := ← readFlag setting v }
  | .suppressClasses => do return { settings with suppressClasses := ← readFlag setting v }
  | .generateInterfaces => do return { settings with generateInterfaces := ← readFlag setting v }
  | .suppressInterfaces => do return { settings with suppressInterfaces := ← readFlag setting v }
  | .generateModels => do return { settings with generateModels := ← readFlag setting v }
  | .additionalImports => do return { settings with additionalImports := ← readImports v }
  | .targetVersion => do return { settings with targetVersion := ← readText setting v }

def settingOf? : Scalar → Option Setting
  | .text name => Setting.named? name
  | _ => none

def settingOf (key : Scalar) : Except Failure Setting :=
  match settingOf? key with
  | some setting => .ok setting
  | none => do
    (Value.scalar key).checkWritable
    throw (.settings (.unknown key))

/-- Reads entries into settings; `given` holds the settings that entries have given so far. -/
def readEntries (given : List Setting) (settings : Settings) :
    List (Scalar × Value) → Except Failure Settings
  | [] => .ok settings
  | (key, v) :: rest => do
    let setting ← settingOf key
    if given.contains setting then .error (.settings (.twice key))
    else readEntries (setting :: given) (← settings.withValue setting v) rest

def checked (settings : Settings) : Except Failure Settings := do
  Setting.checkTemplate (Setting.mentionsTag settings.classNameTemplate)
  Setting.checkTypeName .configurationType settings.configurationType
  Setting.checkTypeName .baseClass settings.baseClass
  Setting.checkTypeName .baseInterface settings.baseInterface
  Setting.checkTypeName .transportType settings.transportType
  Setting.checkVersion settings.targetVersion
  return settings

def ofEntries (entries : List (Scalar × Value)) : Except Failure Settings := do
  checked (← readEntries [] standard entries)

end ApiBinding.Settings
