import ApiBinding.Client
import ApiBinding.Method.OfOperation

/-!
Clients made from a description. Operations are grouped by their tags in the order in which the tags
first appear, and no two generated names may be one.
-/

namespace ApiBinding.Client

/-- What a run answers, and what it warned about on the way. -/
structure Report (α : Type) where
  result : Except Failure α
  warnings : List Warning

/-- The warnings on references of a setting that match none of the given pairs. -/
def unmatched (setting : Setting) (references : List MethodReference)
    (pairs : List (String × String)) : List Warning :=
  (references.filter fun reference => !pairs.contains reference.identifiers).map fun reference =>
    .unmatchedReference setting.key reference.text

def allUnmatched (settings : Settings) (pairs : List (String × String)) : List Warning :=
  unmatched .streamedResponses settings.streamedResponses pairs
    ++ unmatched .streamedRequests settings.streamedRequests pairs
    ++ unmatched .wrappedMethods settings.wrappedMethods pairs

abbrev Member := Operation × Method

/-- Makes methods of operations one after the other up to the first failure. `before` counts the
operations that come before the run is cancelled, if it is. -/
def toMethods (settings : Settings) (before : Option Nat) :
    List Operation → Report (List Member)
  | [] => ⟨.ok [], []⟩
  | operation :: rest =>
    if before = some 0 then ⟨.error (.cancelled operation.method operation.path), []⟩
    else
      match operation.names settings with
      | .error failure => ⟨.error failure, []⟩
      | .ok names =>
        let warnings := operation.warnings settings names
        match operation.toMethod settings with
        | .error failure => ⟨.error failure, warnings⟩
        | .ok method =>
          let others := toMethods settings (before.map (· - 1)) rest
          ⟨others.result.map ((operation, method) :: ·), warnings ++ others.warnings⟩

def addToGroup (groups : List (String × List Member)) (member : Member) :
    List (String × List Member) :=
  let tag := member.1.tag
  Entries.put (· == ·) tag ((Entries.get? (· == ·) tag groups).getD [] ++ [member]) groups

/-- Members by their tags, in the order in which the tags first appear. -/
def byTag (members : List Member) : List (String × List Member) :=
  members.foldl addToGroup []

def requireDistinct (className : String) (taken : NameTable) : List Method → Except Failure Unit
  | [] => .ok ()
  | method :: rest =>
    match taken.source? method.name with
    | some first =>
      .error (.collision (.methods className) method.name first method.rawName)
    | none => requireDistinct className (taken ++ [(method.name, method.rawName)]) rest

def ofGroup (settings : Settings) (tag : String) (methods : List Method) : Client :=
  let className := settings.clientName tag
  { tag
    className
    interfaceName := className ++ interfaceEnding
    methods
    baseClass := settings.baseClass
    baseInterface := settings.baseInterface
    constructor := .ofSettings id settings
    buildsClass := settings.generateClasses
    showsClass := settings.generateClasses && !settings.suppressClasses
    buildsInterface := settings.generateInterfaces
    showsInterface := settings.generateInterfaces && !settings.suppressInterfaces }

def nameSource (client : Client) : String := "client " ++ Text.quoted client.tag

def ofGroups (settings : Settings) (taken : NameTable) :
    List (String × List Member) → Except Failure (List Client × NameTable)
  | [] => .ok ([], taken)
  | (tag, members) :: rest => do
    let client := ofGroup settings tag (members.map Prod.snd)
    requireDistinct client.className [] client.methods
    let taken ← taken.enter .clients client.className client.nameSource
    let taken ← taken.enter .clients client.interfaceName client.nameSource
    let (clients, taken) ← ofGroups settings taken rest
    return (client :: clients, taken)

def allDeclarations (clients : List Client) : List Declaration :=
  Entries.distinct (fun first second => first.name == second.name)
    (clients.flatMap declarations)

/-- Refuses a declared type whose name stands for something else. -/
def checkDeclarations (taken : NameTable) (clients : List Client) : Except Failure Unit :=
  (taken.enterAll .types
    ((allDeclarations clients).map fun declaration => (declaration.name, declaration.source))).2

def ofMembers (settings : Settings) (members : List Member) : Except Failure (List Client) := do
  let (clients, taken) ← ofGroups settings [] (byTag members)
  if settings.generateModels then checkDeclarations taken clients
  return clients

/-- The clients for a description. With `before`, the run is cancelled after so many operations. -/
def ofDescription (description : Description) (settings : Settings) (before : Option Nat := none) :
    Report (List Client) :=
  match description.operations.mapM fun operation => operation.names settings with
  | .error failure => ⟨.error failure, []⟩
  | .ok names =>
    let made := toMethods settings before description.operations
    ⟨made.result.bind (ofMembers settings),
      allUnmatched settings (names.flatMap Operation.Names.pairs) ++ made.warnings⟩

end ApiBinding.Client
