import Montage.Number.Binary64

/-!
# Decimals

A decimal is a natural number of tenth powers. It becomes the double nearest to it, and a double
becomes the decimal of the fewest digits that reads back as that double.
-/
namespace Montage

/-- The number `digits * 10 ^ exponent`. -/
structure Decimal where
  digits : Nat
  exponent : Int
deriving DecidableEq

namespace Decimal

/-- The decimal digits of a number, most significant first; `0` has one. -/
def digitsOf (n : Nat) : List Char := Nat.toDigits 10 n

/-- The nearest double. Outside the exponents tested no digit can matter: the number is above
every finite double, or below half of the least positive one. -/
def toBinary64 (negative : Bool) (d : Decimal) : Binary64 :=
  if d.digits = 0 then Binary64.zero negative
  else
    let leading := d.exponent + (digitsOf d.digits).length
    if 310 < leading then .infinite negative
    else if leading < -330 then Binary64.zero negative
    else
      Binary64.ofUnits negative (d.digits * Nat.pow 10 d.exponent.toNat * Binary64.one)
        (Nat.pow 10 (-d.exponent).toNat)

end Decimal

namespace Binary64

/-- Whether a decimal lies among the reals that round to the double of a positive rank: between
the midpoints to its two neighbours, the midpoints included when the rank is even. -/
def readsBack (rank : Nat) (d : Decimal) : Bool :=
  let up := Nat.pow 10 d.exponent.toNat
  let down := Nat.pow 10 (-d.exponent).toNat
  let value := 2 * one * d.digits * up
  let low := (units (rank - 1) + units rank) * down
  let high := (units rank + units (rank + 1)) * down
  if rank % 2 = 0 then decide (low ≤ value) && decide (value ≤ high)
  else decide (low < value) && decide (value < high)

/-- The least `k` such that the double of a positive rank is below `10 ^ k`. -/
def pointPlace (rank : Nat) : Int :=
  if one ≤ units rank then (Decimal.digitsOf (units rank / one)).length
  else 1 - ((Decimal.digitsOf ((one - 1) / units rank)).length : Int)

/-- The decimal of at most `count` digits that reads back as the double of a positive rank: of
the value's two neighbours on that grid the nearer, on a tie the even one. -/
def onGrid? (rank count : Nat) : Option Decimal :=
  let exponent := pointPlace rank - count
  let up := Nat.pow 10 exponent.toNat
  let down := Nat.pow 10 (-exponent).toNat
  let value := units rank * down
  let grid := one * up
  let below := value / grid
  let lower : Decimal := ⟨below, exponent⟩
  let upper : Decimal := ⟨below + 1, exponent⟩
  match readsBack rank lower, readsBack rank upper with
  | true, true => some ⟨roundQuotient value grid, exponent⟩
  | true, false => some lower
  | false, true => some upper
  | false, false => none

/-- The shortest decimal that reads back as the double of a positive rank. Seventeen digits
always suffice; the exact value stands behind them. -/
def shortest (rank : Nat) : Decimal :=
  ((List.range 17).findSome? fun i => onGrid? rank (i + 1)).getD
    ⟨units rank * Nat.pow 5 1074, -1074⟩

end Binary64

end Montage
