import ApiBinding.Failure

/-!
The versions of documents that can be read.
-/

namespace ApiBinding.OpenApi

/-- The version that a document states, under its present or its former key. -/
def versionOf (document : Value) : Value :=
  (document.get? "openapi").getD (document.get "swagger")

/-- Refuses a document of a version other than 2 or 3. -/
def checkVersion (document : Value) : Except Failure Unit :=
  match versionOf document with
  | .text version =>
    if Text.startsWith "2." version || Text.startsWith "3." version then .ok ()
    else .error (.description (.versionUnsupported version))
  | _ => .error (.description .versionMissing)

end ApiBinding.OpenApi
