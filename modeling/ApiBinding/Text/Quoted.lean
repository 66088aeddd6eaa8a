import ApiBinding.Text.Half
import ApiBinding.Text.Printable

/-!
Texts as quoted literals. Single quotes enclose a text unless it holds single quotes and no double
ones; backslashes, the enclosing quote and all characters without a visible form are escaped.
-/

namespace ApiBinding.Text

def hexDigit (n : Nat) : Char :=
  if n < 10 then Char.ofNat (48 + n) else Char.ofNat (87 + n)

def hexDigits : Nat → Nat → List Char
  | 0, _ => []
  | width + 1, n => hexDigits width (n / 16) ++ [hexDigit (n % 16)]

/-- The escape of a character by its code point, in the shortest of three widths. -/
def escapeCode (n : Nat) : List Char :=
  if n < 0x100 then '\\' :: 'x' :: hexDigits 2 n
  else if n < 0x10000 then '\\' :: 'u' :: hexDigits 4 n
  else '\\' :: 'U' :: hexDigits 8 n

def escapeChar (quote c : Char) : List Char :=
  if c = quote ∨ c = '\\' then ['\\', c]
  else if c = '\t' then ['\\', 't']
  else if c = '\n' then ['\\', 'n']
  else if c = '\r' then ['\\', 'r']
  else if isPrintable c then [c]
  else escapeCode c.toNat

/-- What a code stands for between the given quotes; a half that stands alone is escaped. -/
def escapeUnit (quote : Char) (code : Nat) : List Char :=
  if isHalf code then escapeCode code else escapeChar quote (Char.ofNat code)

def quoteFor (cs : List Char) : Char :=
  if cs.contains '\'' && !cs.contains '"' then '"' else '\''

def quotedChars (cs : List Char) : List Char :=
  let quote := quoteFor cs
  quote :: (codes cs).flatMap (escapeUnit quote) ++ [quote]

def quoted (s : String) : String := String.ofList (quotedChars s.toList)

/-- A byte as it stands between the given quotes; beyond ASCII all bytes are escaped. -/
def escapeByte (quote : Char) (byte : UInt8) : List Char :=
  if byte < 0x80 then escapeChar quote (Char.ofNat byte.toNat) else escapeCode byte.toNat

def quotedBytes (bytes : List UInt8) : String :=
  let quote := quoteFor (bytes.map fun byte => Char.ofNat byte.toNat)
  String.ofList ('b' :: quote :: bytes.flatMap (escapeByte quote) ++ [quote])

end ApiBinding.Text
