/-!
# Base64

Six bits to a character: `decode?` puts the bytes together again. Characters outside the alphabet do
not count, and padding ends the text once it fills the last group of four. A group that is not
complete is refused.
-/

namespace ApiContract.Text.Base64

/-- The six bits of a character. -/
def sextet? (c : Char) : Option Nat :=
  if 'A' ≤ c ∧ c ≤ 'Z' then some (c.toNat - 'A'.toNat)
  else if 'a' ≤ c ∧ c ≤ 'z' then some (c.toNat - 'a'.toNat + 26)
  else if '0' ≤ c ∧ c ≤ '9' then some (c.toNat - '0'.toNat + 52)
  else if c = '+' then some 62
  else if c = '/' then some 63
  else none

/-- The bits that are left over after a character, and the byte that it completes. The place of the
character in its group says how many bits were left over before. -/
def push (place left bits : Nat) : Nat × Option UInt8 :=
  match place with
  | 0 => (bits, none)
  | 1 => (bits % 16, some (left * 4 + bits / 16).toUInt8)
  | 2 => (bits % 4, some (left * 16 + bits / 4).toUInt8)
  | _ => (0, some (left * 64 + bits).toUInt8)

/-- Decodes from a place in a group on, after some padding. -/
def decodeFrom (place left pads : Nat) : List Char → Option (List UInt8)
  | [] => if place = 0 then some [] else none
  | c :: rest =>
    if c = '=' then
      if place < 2 then decodeFrom place left pads rest
      else if 4 ≤ place + pads + 1 then some []
      else decodeFrom place left (pads + 1) rest
    else
      match sextet? c with
      | none => decodeFrom place left pads rest
      | some bits =>
        let (left, byte) := push place left bits
        (decodeFrom ((place + 1) % 4) left 0 rest).map (byte.toList ++ ·)

/-- The bytes of a text. -/
def decode? (text : List Char) : Option (List UInt8) :=
  decodeFrom 0 0 0 text

example : decode? "aGk=".toList = some [104, 105] := by decide +kernel
example : decode? "aG k\n".toList = none ∧ decode? "aGkh".toList = some [104, 105, 33] := by
  decide +kernel

end ApiContract.Text.Base64
