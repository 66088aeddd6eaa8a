/-!
Codes of texts. Two halves of a pair stand for one character; a half that stands alone has a code
but is no character. A text keeps such a half as a character of the last private range, and a
character of that range with a mark in front of it. The main statement is that characters are told
apart from halves and from each other by what is kept of them.
-/

namespace ApiBinding.Text

def isHighHalf (code : Nat) : Bool := 0xd800 ≤ code && code < 0xdc00

def isLowHalf (code : Nat) : Bool := 0xdc00 ≤ code && code < 0xe000

def isHalf (code : Nat) : Bool := isHighHalf code || isLowHalf code

def charOfHalves (high low : Nat) : Char :=
  Char.ofNat (0x10000 + (high - 0xd800) * 0x400 + (low - 0xdc00))

/-- The mark in front of a character that stands for itself. -/
def mark : Char := Char.ofNat 0x10ffff

def standInShift : Nat := 0x100000

/-- Whether the character stands in for a half unless a mark is in front of it. -/
def isStandIn (c : Char) : Bool := isHalf (c.toNat - standInShift)

def kept (c : Char) : List Char := if c = mark ∨ isStandIn c then [mark, c] else [c]

def ofCode (code : Nat) : List Char :=
  if isHalf code then [Char.ofNat (standInShift + code)] else kept (Char.ofNat code)

/-- The parts of a text that stand for one code each. -/
def units : List Char → List (List Char)
  | [] => []
  | [c] => [[c]]
  | c :: d :: rest => if c = mark then [c, d] :: units rest else [c] :: units (d :: rest)

def codeOf : List Char → Nat
  | [] => 0
  | [c] => if isStandIn c then c.toNat - standInShift else c.toNat
  | _ :: c :: _ => c.toNat

def codes (cs : List Char) : List Nat := (units cs).map codeOf

theorem codes_kept_append (c : Char) (cs : List Char) :
    codes (kept c ++ cs) = c.toNat :: codes cs := by
  by_cases h : c = mark ∨ isStandIn c
  · simp [kept, h, codes, units, codeOf]
  · rw [not_or] at h
    cases cs with
    | nil => simp [kept, h, codes, units, codeOf]
    | cons d rest => simp [kept, h, codes, units, codeOf]

theorem codes_flatMap_kept (cs : List Char) : codes (cs.flatMap kept) = cs.map Char.toNat := by
  induction cs with
  | nil => rfl
  | cons c rest ih => rw [List.flatMap_cons, codes_kept_append, ih, List.map_cons]

/-- Texts are in order by their codes. -/
def precedes (s t : String) : Bool := decide (codes s.toList < codes t.toList)

/-- The bytes of a text, unless a half stands alone in it. -/
def bytes? (s : String) : Option ByteArray :=
  let codes := codes s.toList
  if codes.any isHalf then none else some (String.ofList (codes.map Char.ofNat)).toUTF8

end ApiBinding.Text
