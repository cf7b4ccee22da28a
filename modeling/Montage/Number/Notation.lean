import Montage.Number.Decimal

/-!
# Number texts

Two notations of a double. The natural one has the fewest digits that read back, is positional
while the leading digit stands between `10 ^ -4` and `10 ^ 15`, keeps `.0` on whole numbers, and
is otherwise scientific with a signed exponent of two digits or more. The fixed one has six
places and rounds the exact value, a half to the even digit.
-/
namespace Montage

namespace Notation

def zeros (n : Nat) : List Char := List.replicate n '0'

/-- Digits with the point after the first `point` of them, padded with zeros where it falls
outside. -/
def positional (digits : List Char) (point : Int) : List Char :=
  if point ≤ 0 then '0' :: '.' :: zeros (-point).toNat ++ digits
  else if digits.length ≤ point.toNat then
    digits ++ zeros (point.toNat - digits.length) ++ ['.', '0']
  else digits.take point.toNat ++ '.' :: digits.drop point.toNat

/-- One digit before the point and the decimal exponent after the others. -/
def scientific (digits : List Char) (exponent : Int) : List Char :=
  let fraction := if digits.length ≤ 1 then [] else '.' :: digits.drop 1
  let size := Decimal.digitsOf exponent.natAbs
  let padded := zeros (2 - size.length) ++ size
  digits.take 1 ++ fraction ++ 'e' :: (if exponent < 0 then '-' else '+') :: padded

def withoutTrailingZeros (digits : List Char) : List Char :=
  (digits.reverse.dropWhile (· = '0')).reverse

/-- The natural notation of a decimal that is not zero. -/
def ofDecimal (d : Decimal) : List Char :=
  let digits := Decimal.digitsOf d.digits
  let point := d.exponent + digits.length
  let kept := withoutTrailingZeros digits
  if -4 ≤ point - 1 && point - 1 < 16 then positional kept point
  else scientific kept (point - 1)

def signed (negative : Bool) (text : List Char) : String :=
  String.ofList (if negative then '-' :: text else text)

/-- A number of millionths with its point. -/
def sixPlaces (millionths : Nat) : List Char :=
  let fraction := Decimal.digitsOf (millionths % 1000000)
  Decimal.digitsOf (millionths / 1000000) ++ '.' :: zeros (6 - fraction.length) ++ fraction

end Notation

namespace Binary64

/-- The natural notation. -/
def text : Binary64 → String
  | nan => "nan"
  | infinite s => if s then "-inf" else "inf"
  | finite s r =>
    Notation.signed s
      (if r.val = 0 then ['0', '.', '0'] else Notation.ofDecimal (shortest r.val))

/-- The notation with six places. -/
def fixed : Binary64 → String
  | nan => "nan"
  | infinite s => if s then "-inf" else "inf"
  | finite s r =>
    Notation.signed s (Notation.sixPlaces (roundQuotient (units r.val * 1000000) one))

end Binary64

end Montage
