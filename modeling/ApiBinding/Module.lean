import ApiBinding.Client.OfDescription
import ApiBinding.Client.Render
import ApiBinding.Module.Header
import ApiBinding.Module.Support
import ApiBinding.Text.Blank

/-!
Generated modules: a head, the declarations of types, the clients and the support classes.
-/

namespace ApiBinding.Module

structure Parts where
  header : List String
  declarations : List String
  clients : List (List String)
  support : List String

def requiredSupport (clients : List Client) : List SupportClass :=
  SupportClass.all.filter fun support => clients.any fun client => client.needs support

def parts (clients : List Client) (settings : Settings) : Except Failure Parts := do
  let dialect ← settings.dialect
  let blocks ← clients.mapM fun client => client.blocks dialect
  let emitted := clients.filter Client.isShown
  return {
    header := Header.lines dialect settings.additionalImports
    declarations :=
      if settings.generateModels then
        (Client.allDeclarations emitted).flatMap Declaration.lines
      else []
    clients := blocks.flatten
    support := SupportClass.linesOf (requiredSupport emitted)
  }

def Parts.lines (parts : Parts) : List String :=
  parts.header ++ parts.declarations ++ parts.clients.flatMap (fun block => block ++ ["", ""])
    ++ parts.support

/-- The text of lines, with one line end after the last character that is not blank. -/
def text (lines : List String) : String :=
  String.ofList (Text.dropEnd Text.isBlank (Text.joined "\n" lines).toList) ++ "\n"

def render (clients : List Client) (settings : Settings) : Except Failure String := do
  return text (← parts clients settings).lines

/-- The text of the module for a description. With `before`, the run is cancelled after so many
operations. -/
def generate (description : Description) (settings : Settings) (before : Option Nat := none) :
    Client.Report String :=
  let built := Client.ofDescription description settings before
  ⟨built.result.bind fun clients => render clients settings, built.warnings⟩

end ApiBinding.Module
