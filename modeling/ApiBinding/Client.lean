import ApiBinding.Method

/-!
Generated clients: a class and an interface with the methods of one tag.
-/

namespace ApiBinding

inductive TransportOrigin where
  | injected
  | owned
deriving DecidableEq

structure Constructor where
  configurationType : Option String
  passesConfiguration : Bool
  initializesBase : Bool
  transport : TransportOrigin
  transportType : String
deriving DecidableEq

/-- The type of the transport, where settings name no other. -/
def usualTransport : String := "httpx.AsyncClient"

def Constructor.ofSettings {Flag Text : Type} (isOn : Flag → Bool)
    (settings : SettingsOf Flag Text) : Constructor where
  configurationType := settings.configurationType
  passesConfiguration := settings.configurationType.isSome && settings.baseClass.isSome
  initializesBase := settings.configurationType.isNone && settings.baseClass.isSome
  transport := if isOn settings.injectTransport then .injected else .owned
  transportType := settings.transportType.getD usualTransport

/-- A client, with the decisions on which of its parts are built and which appear in the module. -/
structure Client where
  tag : String
  className : String
  interfaceName : String
  methods : List Method
  baseClass : Option String
  baseInterface : Option String
  constructor : Constructor
  buildsClass : Bool := true
  showsClass : Bool := true
  buildsInterface : Bool := false
  showsInterface : Bool := false

namespace Client

def interfaceEnding : String := "Protocol"

def needs (client : Client) (support : SupportClass) : Bool :=
  client.methods.any fun method => method.support.contains support

def support (client : Client) : List SupportClass :=
  SupportClass.all.filter client.needs

/-- The declarations of the methods, the first one of each name. -/
def declarations (client : Client) : List Declaration :=
  Entries.distinct (fun first second => first.name == second.name)
    (client.methods.flatMap Method.declarations)

def isShown (client : Client) : Bool := client.showsInterface || client.showsClass

end Client

end ApiBinding
