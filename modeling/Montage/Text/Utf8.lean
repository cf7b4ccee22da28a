import Montage.Text.Letter

/-!
# Decoding UTF-8

Bytes become characters; where they are not well-formed, each longest start of a well-formed
sequence, or else each single byte, becomes one replacement character.
-/
namespace Montage.Text

def replacement : Char := '\ufffd'

/-- How many continuation bytes follow a lead byte, the bits that it contributes, and the range
allowed for the first of those bytes: the range excludes overlong forms, surrogates and numbers
past the last code point. -/
def leadByte? (b : Nat) : Option (Nat × Nat × Nat × Nat) :=
  if 0xc2 ≤ b && b ≤ 0xdf then some (1, b - 0xc0, 0x80, 0xbf)
  else if b = 0xe0 then some (2, 0, 0xa0, 0xbf)
  else if b = 0xed then some (2, 0xd, 0x80, 0x9f)
  else if 0xe1 ≤ b && b ≤ 0xef then some (2, b - 0xe0, 0x80, 0xbf)
  else if b = 0xf0 then some (3, 0, 0x90, 0xbf)
  else if 0xf1 ≤ b && b ≤ 0xf3 then some (3, b - 0xf0, 0x80, 0xbf)
  else if b = 0xf4 then some (3, 4, 0x80, 0x8f)
  else none

/-- A sequence under way: continuation bytes still due, bits so far, range of the next byte. -/
structure Pending where
  due : Nat
  bits : Nat
  low : Nat
  high : Nat

/-- The characters of the bytes from the start of a sequence, or inside a pending one. -/
def decodeFrom (pending : Option Pending) : List UInt8 → List Char
  | [] => if pending.isSome then [replacement] else []
  | byte :: rest =>
    let b := byte.toNat
    let fresh : Option Pending × List Char :=
      if b < 0x80 then (none, [Char.ofNat b])
      else
        match leadByte? b with
        | some (due, bits, low, high) => (some ⟨due, bits, low, high⟩, [])
        | none => (none, [replacement])
    match pending with
    | none => fresh.2 ++ decodeFrom fresh.1 rest
    | some p =>
      if p.low ≤ b && b ≤ p.high then
        let bits := p.bits * 64 + (b - 0x80)
        if p.due ≤ 1 then Char.ofNat bits :: decodeFrom none rest
        else decodeFrom (some ⟨p.due - 1, bits, 0x80, 0xbf⟩) rest
      else replacement :: fresh.2 ++ decodeFrom fresh.1 rest

def decodeLossy (bytes : List UInt8) : String := ofChars (decodeFrom none bytes)

end Montage.Text
