/-!
Bytes written with 64 characters, of which four stand for three bytes. All other characters mean
nothing, except that signs for what is missing end the text where they complete a group.
-/

namespace ApiBinding.Text

def sextet? (c : Char) : Option Nat :=
  if 'A' ≤ c ∧ c ≤ 'Z' then some (c.toNat - 65)
  else if 'a' ≤ c ∧ c ≤ 'z' then some (c.toNat - 71)
  else if c.isDigit then some (c.toNat + 4)
  else if c = '+' then some 62
  else if c = '/' then some 63
  else none

/-- The bytes that a group of sextets gives; the bits beyond the last whole byte are left out. -/
def groupBytes : List Nat → List UInt8
  | [a, b] => [(4 * a + b / 16).toUInt8]
  | [a, b, c] => groupBytes [a, b] ++ [(16 * (b % 16) + c / 4).toUInt8]
  | [a, b, c, d] => groupBytes [a, b, c] ++ [(64 * (c % 4) + d).toUInt8]
  | _ => []

/-- The bytes that characters give after the sextets of a group that is not complete and after so
many signs for missing ones. -/
def bytesFrom (group : List Nat) (missing : Nat) : List Char → Option (List UInt8)
  | [] => if group.isEmpty then some [] else none
  | c :: rest =>
    if c = '=' then
      if group.length < 2 then bytesFrom group missing rest
      else if 4 ≤ group.length + missing + 1 then some (groupBytes group)
      else bytesFrom group (missing + 1) rest
    else
      match sextet? c with
      | none => bytesFrom group missing rest
      | some n =>
        let group := group ++ [n]
        if group.length = 4 then (bytesFrom [] 0 rest).map (groupBytes group ++ ·)
        else bytesFrom group 0 rest

/-- The bytes that characters stand for; the last group has to be complete. -/
def base64? (cs : List Char) : Option (List UInt8) := bytesFrom [] 0 cs

end ApiBinding.Text
