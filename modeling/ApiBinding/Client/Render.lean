import ApiBinding.Client
import ApiBinding.Method.Render

/-!
The text of the classes and interfaces of clients.
-/

namespace ApiBinding.Client

open Text (joined)

def spaced : List (List String) → List String
  | [] => []
  | [block] => block
  | block :: rest => block ++ "" :: spaced rest

def given (base : Option String) : List String :=
  (base.filter (· != "")).toList

def interfaceLines (client : Client) (dialect : Dialect) : Except Failure (List String) := do
  let methods ← client.methods.mapM fun method => method.interfaceLines dialect
  let bases := given client.baseInterface ++ ["Protocol"]
  return ("class " ++ client.interfaceName ++ "(" ++ joined ", " bases ++ "):") :: spaced methods

def configurationPart (shape : Constructor) : List String × List String :=
  match shape.configurationType with
  | some type =>
    (["configuration: " ++ type],
      if shape.passesConfiguration then [bodyIndent ++ "super().__init__(configuration)"]
      else [bodyIndent ++ "self.configuration = configuration"])
  | none => ([], if shape.initializesBase then [bodyIndent ++ "super().__init__()"] else [])

def transportPart (shape : Constructor) : List String × List String :=
  match shape.transport with
  | .injected =>
    (["transport: " ++ shape.transportType], [bodyIndent ++ "self._transport = transport"])
  | .owned => ([], [bodyIndent ++ "self._transport = " ++ shape.transportType ++ "()"])

/-- The members that close a transport of the client's own. -/
def closingLines (className : String) : List String :=
  ["",
    "    async def aclose(self) -> None:",
    "        await self._transport.aclose()",
    "",
    "    async def __aenter__(self) -> " ++ className ++ ":",
    "        return self",
    "",
    "    async def __aexit__(self, *args: Any) -> None:",
    "        await self.aclose()"]

def constructorLines (client : Client) : List String :=
  let (configuration, configure) := configurationPart client.constructor
  let (transport, connect) := transportPart client.constructor
  ("    def __init__(" ++ joined ", " (["self"] ++ configuration ++ transport) ++ ") -> None:")
    :: configure ++ connect
    ++ (if client.constructor.transport = .owned then closingLines client.className else [])

def classLines (client : Client) (dialect : Dialect) : Except Failure (List String) := do
  let methods ← client.methods.mapM fun method => method.lines dialect client.buildsInterface
  let bases := given client.baseClass
    ++ (if client.buildsInterface then [client.interfaceName] else [])
  let opening := if bases.isEmpty then "class " ++ client.className ++ ":"
    else "class " ++ client.className ++ "(" ++ joined ", " bases ++ "):"
  return [opening, "    base_url: str = ''", ""] ++ client.constructorLines
    ++ methods.flatMap ("" :: ·)

/-- The blocks of the client that appear in the module: the interface and the class. Parts that are
built without appearing are written all the same, and may fail. -/
def blocks (client : Client) (dialect : Dialect) : Except Failure (List (List String)) := do
  let interfaces ← if client.buildsInterface then do pure [← client.interfaceLines dialect]
    else pure []
  let classes ← if client.buildsClass then do pure [← client.classLines dialect] else pure []
  return (if client.showsInterface then interfaces else [])
    ++ (if client.showsClass then classes else [])

end ApiBinding.Client
