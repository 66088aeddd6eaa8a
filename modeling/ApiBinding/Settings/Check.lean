import ApiBinding.Settings

/-!
What settings must fulfil, whatever form they were given in: the names of types are made of
identifiers, and the version is one of Python 3. A line end at the very end is let through.
-/

namespace ApiBinding.Setting

def isNameStart (c : Char) : Bool := c.isAlpha || c == '_'

def isNameChar (c : Char) : Bool := c.isAlphanum || c == '_'

/-- The text without the line feed at its very end. -/
def withoutLastFeed (cs : List Char) : List Char :=
  if cs.getLast? = some '\n' then cs.dropLast else cs

def isName : List Char → Bool
  | [] => false
  | c :: rest => isNameStart c && rest.all isNameChar

/-- Whether a text is one or more identifiers with points between them. -/
def isTypeName (s : String) : Bool :=
  (Text.pieces (· == '.') (withoutLastFeed s.toList)).all isName

def isVersion (s : String) : Bool :=
  match withoutLastFeed s.toList with
  | '3' :: '.' :: rest => !rest.isEmpty && rest.all fun c => (Text.digitValue? c).isSome
  | _ => false

def checkTypeName (setting : Setting) : Option String → Except Failure Unit
  | none => .ok ()
  | some s => if isTypeName s then .ok () else .error (.settings (.typeName setting.key s))

def checkVersion (s : String) : Except Failure Unit :=
  if isVersion s then .ok () else .error (.settings (.version s))

def checkTemplate (mentionsTag : Bool) : Except Failure Unit :=
  if mentionsTag then .ok () else .error (.settings .templateWithoutTag)

def mentionsTag (template : String) : Bool :=
  Text.occurs "\x7btag\x7d".toList template.toList

end ApiBinding.Setting
