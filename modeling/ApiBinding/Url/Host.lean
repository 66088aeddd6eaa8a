import ApiBinding.Number.Digits
import ApiBinding.Text.Pieces

/-!
Hosts of URLs in brackets: addresses of eight groups of hexadecimal digits, in which one run of
zeros may be left out and the last two groups may be written with decimal numbers, and addresses of
future versions.
-/

namespace ApiBinding.Url

def isOctet (cs : List Char) : Bool :=
  !cs.isEmpty && cs.all Char.isDigit && cs.length ≤ 3
    && (cs == ['0'] || cs.head? != some '0') && Digits.decimal cs ≤ 255

def isFourNumbers (cs : List Char) : Bool :=
  let octets := Text.pieces (· == '.') cs
  octets.length == 4 && octets.all isOctet

def isGroup (cs : List Char) : Bool :=
  !cs.isEmpty && cs.length ≤ 4 && cs.all Digits.isHex

/-- The groups with four numbers at the end turned into two groups. -/
def withoutNumbers? (groups : List (List Char)) : Option (List (List Char)) :=
  match groups.getLast? with
  | some last =>
    if last.contains '.' then
      if isFourNumbers last then some (groups.dropLast ++ [['0'], ['0']]) else none
    else some groups
  | none => none

/-- Whether groups on both sides of the run of zeros are in order: a group may be empty only at the
outer end, next to the run. -/
def areAroundZeros (before after : List (List Char)) : Bool :=
  let before := if before = [[]] then [] else before
  let after := if after = [[]] then [] else after
  before.all isGroup && after.all isGroup && before.length + after.length ≤ 7

def areGroups (groups : List (List Char)) : Bool :=
  let inner := (groups.drop 1).dropLast
  match inner.findIdx? List.isEmpty with
  | some i =>
    (inner.countP List.isEmpty) == 1
      && areAroundZeros (groups.take (i + 1)) (groups.drop (i + 2))
  | none => groups.length == 8 && groups.all isGroup

/-- Whether the characters are an address of eight groups, with a zone after it or not. -/
def isAddress (cs : List Char) : Bool :=
  let (address, zoned) : List Char × Bool := match Text.splitFirst? '%' cs with
    | some (address, zone) => (address, !zone.isEmpty && !zone.contains '%')
    | none => (cs, true)
  let groups := Text.pieces (· == ':') address
  zoned && 3 ≤ groups.length
    && (match withoutNumbers? groups with
      | some groups => groups.length ≤ 9 && areGroups groups
      | none => false)

def isFutureAddress (cs : List Char) : Bool :=
  match cs.dropWhile Digits.isHex with
  | '.' :: rest => Digits.isHex (cs.headD '.') && !rest.isEmpty && rest.all (· != '\n')
  | _ => false

def isBracketed (cs : List Char) : Bool :=
  match cs with
  | 'v' :: rest => isFutureAddress rest
  | cs => isAddress cs

/-- The characters beyond ASCII whose plain forms contain a delimiter of URLs. -/
def hiddenDelimiters : List Nat :=
  [0x2047, 0x2048, 0x2049, 0x2100, 0x2101, 0x2105, 0x2106, 0x2a74, 0xfe13, 0xfe16, 0xfe55, 0xfe56,
    0xfe5f, 0xfe6b, 0xff03, 0xff0f, 0xff1a, 0xff1f, 0xff20]

/-- The host of an authority with brackets in it, which follows the last at sign. Nothing may stand
before its brackets, and only a port after them. -/
def bracketedHost? (cs : List Char) : Option (List Char) :=
  let hostAndPort := match Text.splitLast? '@' cs with
    | some (_, hostAndPort) => hostAndPort
    | none => cs
  match Text.splitFirst? '[' hostAndPort with
  | none => some (hostAndPort.takeWhile (· != ':'))
  | some (before, rest) =>
    let after := (rest.dropWhile (· != ']')).drop 1
    if before.isEmpty && (after.isEmpty || after.head? == some ':') then
      some (rest.takeWhile (· != ']'))
    else none

def isAuthority (cs : List Char) : Bool :=
  let brackets :=
    match cs.contains '[', cs.contains ']' with
    | false, false => true
    | true, true => (bracketedHost? cs).any isBracketed
    | _, _ => false
  brackets && cs.all fun c => !hiddenDelimiters.contains c.toNat

end ApiBinding.Url
