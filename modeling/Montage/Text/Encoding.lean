import Montage.Text.Utf8

/-!
# Encodings

A text may be encoded in code units of one, two or four bytes, in either order of bytes. Which of
these it is shows in the zero bytes at its start, if its first characters are ASCII.
-/
namespace Montage.Text

inductive ByteOrder where
  | big
  | little
deriving DecidableEq

inductive Encoding where
  | bytes
  | pairs (order : ByteOrder)
  | quads (order : ByteOrder)
deriving DecidableEq

namespace Encoding

/-- The encoding that the first bytes of a text show. -/
def guess : List UInt8 → Encoding
  | [a, b] =>
    if a = 0 then pairs .big else if b = 0 then pairs .little else bytes
  | a :: b :: c :: d :: _ =>
    if a = 0 then (if b = 0 then quads .big else pairs .big)
    else if b = 0 then (if c = 0 && d = 0 then quads .little else pairs .little)
    else bytes
  | _ => bytes

end Encoding

/-- The number that bytes make up. -/
def unitOf (order : ByteOrder) (unit : List UInt8) : Nat :=
  let ordered := match order with
    | .big => unit
    | .little => unit.reverse
  ordered.foldl (fun n byte => n * 0x100 + byte.toNat) 0

/-- The code units of two bytes each; nothing if a byte is left over. -/
def pairUnits? (order : ByteOrder) : List UInt8 → Option (List Nat)
  | [] => some []
  | a :: b :: rest => (pairUnits? order rest).map (unitOf order [a, b] :: ·)
  | [_] => none

/-- The code units of four bytes each; nothing if bytes are left over. -/
def quadUnits? (order : ByteOrder) : List UInt8 → Option (List Nat)
  | [] => some []
  | a :: b :: c :: d :: rest => (quadUnits? order rest).map (unitOf order [a, b, c, d] :: ·)
  | _ => none

/-- The character of a code point; a surrogate has the replacement character. -/
def pointChar (n : Nat) : Char := if h : n.isValidChar then Char.ofNatAux n h else replacement

/-- The characters of units of which a high surrogate and a low one after it are one. -/
def joinPairs : List Nat → List Char
  | [] => []
  | [unit] => [pointChar unit]
  | first :: second :: rest =>
    if 0xd800 ≤ first && first ≤ 0xdbff && 0xdc00 ≤ second && second ≤ 0xdfff then
      pointChar (0x10000 + (first - 0xd800) * 0x400 + (second - 0xdc00)) :: joinPairs rest
    else pointChar first :: joinPairs (second :: rest)

/-- The characters of bytes in an encoding, or nothing where they cannot be told. -/
def decode? (encoding : Encoding) (bytes : List UInt8) : Option (List Char) :=
  match encoding with
  | .bytes => some (decodeFrom none bytes)
  | .pairs order => (pairUnits? order bytes).map joinPairs
  | .quads order =>
    (quadUnits? order bytes).bind fun units =>
      if units.all (· ≤ 0x10ffff) then some (units.map pointChar) else none

end Montage.Text
