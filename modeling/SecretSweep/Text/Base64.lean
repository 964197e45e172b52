/-!
Base 64: four letters for three bytes. Characters of no meaning are passed over.
-/

namespace SecretSweep.Text.Base64

def value? (c : Char) : Option Nat :=
  if 'A' ≤ c ∧ c ≤ 'Z' then some (c.toNat - 'A'.toNat)
  else if 'a' ≤ c ∧ c ≤ 'z' then some (c.toNat - 'a'.toNat + 26)
  else if '0' ≤ c ∧ c ≤ '9' then some (c.toNat - '0'.toNat + 52)
  else if c = '+' then some 62
  else if c = '/' then some 63
  else none

/-- Reads on inside a group of four: `count` letters of it have been read, `left` is the value of
their bits that have made no byte, and `pads` counts the padding since the last letter. A complete
padding ends the text, whatever follows. -/
def decodeFrom : (count left pads : Nat) → List Char → Option (List UInt8)
  | count, _, _, [] => if count = 0 then some [] else none
  | count, left, pads, c :: rest =>
    if c = '=' then
      if 2 ≤ count then
        if 4 ≤ count + (pads + 1) then some [] else decodeFrom count left (pads + 1) rest
      else decodeFrom count left pads rest
    else match value? c with
      | none => decodeFrom count left pads rest
      | some v =>
        match count with
        | 0 => decodeFrom 1 v 0 rest
        | 1 => (decodeFrom 2 (v % 16) 0 rest).map ((left * 4 + v / 16).toUInt8 :: ·)
        | 2 => (decodeFrom 3 (v % 4) 0 rest).map ((left * 16 + v / 4).toUInt8 :: ·)
        | _ => (decodeFrom 0 0 0 rest).map ((left * 64 + v).toUInt8 :: ·)

def decode (s : List Char) : Option (List UInt8) := decodeFrom 0 0 0 s

end SecretSweep.Text.Base64
