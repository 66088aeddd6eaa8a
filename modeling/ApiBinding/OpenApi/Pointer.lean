import ApiBinding.Failure

/-!
Pointers into a document: keys with slashes between them, in which a slash is written `~1` and a
tilde `~0`.
-/

namespace ApiBinding.OpenApi

def escapeKey (key : String) : String :=
  Text.replaced "/" "~1" (Text.replaced "~" "~0" key)

def unescapeKey (part : String) : String :=
  Text.replaced "~0" "~" (Text.replaced "~1" "/" part)

def fragmentOf (keys : List String) : String :=
  String.join (keys.map fun key => "/" ++ escapeKey key)

/-- The keys through which a fragment leads. The slash at its front may be missing. -/
def keysOf (fragment : String) : List String :=
  if fragment = "" ∨ fragment = "/" then []
  else (Text.piecesAt '/' ((Text.rest? "/" fragment).getD fragment)).map unescapeKey

def follow? (v : Value) : List String → Option Value
  | [] => some v
  | key :: rest => (v.get? key).bind fun inner => follow? inner rest

def atFragment (document : Value) (fragment : String) : Except Failure Value :=
  match follow? document (keysOf fragment) with
  | some v => .ok v
  | none => .error (.description (.danglingPointer fragment))

end ApiBinding.OpenApi
