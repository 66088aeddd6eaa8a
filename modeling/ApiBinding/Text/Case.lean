import ApiBinding.Text.CaseTable

/-!
Texts in lower, upper and title case, for letters of all scripts. One letter may become several,
and the lower case of a capital sigma depends on whether a word ends with it.
-/

namespace ApiBinding.Text

def CaseRun.image? (run : CaseRun) (c : Char) : Option Char :=
  let n := c.toNat
  if run.first ≤ n ∧ n ≤ run.last ∧ (n - run.first) % run.stride = 0 then
    some (Char.ofNat (n + run.shift).toNat)
  else none

/-- The characters that the tables give, or the character itself if they do not list it. -/
def fromTables (runs : List CaseRun) (long : List (Nat × List Nat)) (c : Char) : List Char :=
  match long.find? (·.1 == c.toNat) with
  | some (_, codes) => codes.map Char.ofNat
  | none => [(runs.findSome? (·.image? c)).getD c]

/-- The character in lower case, where it stands alone. -/
def lowerChar (c : Char) : List Char :=
  if c.toNat < 128 then [c.toLower] else fromTables lowerRuns lowerLong c

def upperChar (c : Char) : List Char :=
  if c.toNat < 128 then [c.toUpper] else fromTables upperRuns upperLong c

def titleChar (c : Char) : List Char :=
  if c.toNat < 128 then [c.toUpper] else fromTables titleRuns titleLong c

def isCased (c : Char) : Bool :=
  if c.toNat < 128 then c.isAlpha else within casedBounds c.toNat

/-- Whether the character is passed over when the end of a word is looked for. -/
def isWordMark (c : Char) : Bool :=
  if c.toNat < 128 then ['\'', '.', ':', '^', '\x60'].contains c
  else within wordMarkBounds c.toNat

/-- Whether the first letter or sign of the characters, marks apart, has a case. -/
def meetsCased (cs : List Char) : Bool :=
  ((cs.dropWhile isWordMark).head?.map isCased).getD false

/-- The characters in lower case; `before` holds those in front of them, in reverse. -/
def lowerFrom (before : List Char) : List Char → List Char
  | [] => []
  | c :: rest =>
    let ends := meetsCased before && !meetsCased rest
    (if c = 'Σ' then [if ends then 'ς' else 'σ'] else lowerChar c) ++ lowerFrom (c :: before) rest

def lower (s : String) : String := String.ofList (lowerFrom [] s.toList)

def upper (s : String) : String := String.ofList (s.toList.flatMap upperChar)

/-- The characters with a capital at the start of every stretch of letters, other letters being
small; `inWord` says whether a letter stands in front of them. -/
def titleFrom (inWord : Bool) : List Char → List Char
  | [] => []
  | c :: rest => (if inWord then lowerChar c else titleChar c) ++ titleFrom (isCased c) rest

end ApiBinding.Text
