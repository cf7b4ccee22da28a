/-!
# Binary64 numbers

A finite double is its sign and its *rank*: its place among the nonnegative doubles in
increasing order, zero first. Ranks make the order of doubles the order of naturals, and the
size of a double is a whole number of units of `2 ^ -1074`, the least positive double. Every
operation is the exact result in that unit, rounded once to the nearest rank.
-/
namespace Montage

/-- Why a number has no counterpart of the kind asked for. -/
inductive ConversionError where
  | nanToInteger
  | infinityToInteger
  | integerTooLarge
  | quotientTooLarge
deriving DecidableEq

namespace ConversionError

def message : ConversionError → String
  | nanToInteger => "cannot convert float NaN to integer"
  | infinityToInteger => "cannot convert float infinity to integer"
  | integerTooLarge => "int too large to convert to float"
  | quotientTooLarge => "integer division result too large for a float"

end ConversionError

/-- The number of finite doubles of one sign. -/
abbrev Binary64.finiteCount : Nat := 2047 <<< 52

inductive Binary64 where
  | nan
  | infinite (negative : Bool)
  | finite (negative : Bool) (rank : Fin Binary64.finiteCount)
deriving DecidableEq

namespace Binary64

/-- One, in units of the least positive double. -/
def one : Nat := 1 <<< 1074

/-- The size of the nonnegative double of a rank, in units of the least positive double. -/
def units (rank : Nat) : Nat :=
  let shift := (rank >>> 52) - 1
  (rank - (shift <<< 52)) <<< shift

/-- A quotient rounded to the nearest integer, a half to the even one. -/
def roundQuotient (num den : Nat) : Nat :=
  let q := num / den
  let r := num % den
  if 2 * r < den then q
  else if den < 2 * r then q + 1
  else q + q % 2

/-- The rank whose size is nearest to `num / den` units, ties to the even rank. -/
def nearestRank (num den : Nat) : Nat :=
  let shift := (num / den).log2 - 52
  (shift <<< 52) + roundQuotient num (den <<< shift)

/-- The double of a sign and rank; a rank past the finite ones is infinity. -/
def ofRank (negative : Bool) (rank : Nat) : Binary64 :=
  if h : rank < finiteCount then finite negative ⟨rank, h⟩ else infinite negative

/-- The double nearest to `num / den` units of the given sign. -/
def ofUnits (negative : Bool) (num den : Nat) : Binary64 :=
  ofRank negative (nearestRank num den)

def zero (negative : Bool) : Binary64 := finite negative ⟨0, by decide⟩

/-- The double nearest to a quotient. -/
def ofRatio (num : Int) (den : Nat) : Binary64 :=
  ofUnits (decide (num < 0)) (num.natAbs * one) den

instance : Inhabited Binary64 := ⟨zero false⟩

/-- The signed size of a finite double, in units of the least positive double. -/
def signedUnits (negative : Bool) (rank : Nat) : Int :=
  if negative then -(units rank : Int) else units rank

def neg : Binary64 → Binary64
  | nan => nan
  | infinite s => infinite (!s)
  | finite s r => finite (!s) r

/-- A sum that is exactly zero is negative only when both summands are. -/
def add : Binary64 → Binary64 → Binary64
  | nan, _ => nan
  | _, nan => nan
  | infinite s, infinite t => if s = t then infinite s else nan
  | infinite s, finite _ _ => infinite s
  | finite _ _, infinite t => infinite t
  | finite s a, finite t b =>
    let total := signedUnits s a + signedUnits t b
    if total = 0 then zero (s && t) else ofUnits (decide (total < 0)) total.natAbs 1

def sub (x y : Binary64) : Binary64 := add x (neg y)

def mul : Binary64 → Binary64 → Binary64
  | nan, _ => nan
  | _, nan => nan
  | infinite s, infinite t => infinite (s ^^ t)
  | infinite s, finite t b => if b.val = 0 then nan else infinite (s ^^ t)
  | finite s a, infinite t => if a.val = 0 then nan else infinite (s ^^ t)
  | finite s a, finite t b => ofUnits (s ^^ t) (units a * units b) one

def div : Binary64 → Binary64 → Binary64
  | nan, _ => nan
  | _, nan => nan
  | infinite _, infinite _ => nan
  | infinite s, finite t _ => infinite (s ^^ t)
  | finite s _, infinite t => zero (s ^^ t)
  | finite s a, finite t b =>
    if b.val = 0 then if a.val = 0 then nan else infinite (s ^^ t)
    else ofUnits (s ^^ t) (units a * one) (units b)

/-- The place of a number in the order of doubles, both zeros in one place; `nan` has none. -/
def place : Binary64 → Option Int
  | nan => none
  | infinite s => some (if s then -(finiteCount : Int) else finiteCount)
  | finite s r => some (if s then -(r.val : Int) else r.val)

def le (x y : Binary64) : Bool :=
  match place x, place y with
  | some a, some b => decide (a ≤ b)
  | _, _ => false

def lt (x y : Binary64) : Bool :=
  match place x, place y with
  | some a, some b => decide (a < b)
  | _, _ => false

instance : Add Binary64 := ⟨add⟩
instance : Sub Binary64 := ⟨sub⟩
instance : Mul Binary64 := ⟨mul⟩
instance : Div Binary64 := ⟨div⟩
instance : LE Binary64 := ⟨fun x y => le x y = true⟩
instance : LT Binary64 := ⟨fun x y => lt x y = true⟩
instance : DecidableLE Binary64 := fun x y => inferInstanceAs (Decidable (le x y = true))
instance : DecidableLT Binary64 := fun x y => inferInstanceAs (Decidable (lt x y = true))

/-- An integer made from the signed size of a finite number; others have none. -/
def toInteger (whole : Int → Int) : Binary64 → Except ConversionError Int
  | nan => .error .nanToInteger
  | infinite _ => .error .infinityToInteger
  | finite s r => .ok (whole (signedUnits s r))

/-- The greatest integer not above the number. -/
def floor : Binary64 → Except ConversionError Int :=
  toInteger fun n => n / (one : Int)

/-- The integer part, toward zero. -/
def truncate : Binary64 → Except ConversionError Int :=
  toInteger fun n => n.tdiv (one : Int)

/-- The nearest integer, a half to the even one. -/
def roundHalfEven : Binary64 → Except ConversionError Int :=
  toInteger fun n =>
    let size : Int := roundQuotient n.natAbs one
    if n < 0 then -size else size

def isFinite : Binary64 → Bool
  | finite _ _ => true
  | _ => false

/-- Whether the number is finite and without a fraction. -/
def isIntegral : Binary64 → Bool
  | finite _ r => units r % one = 0
  | _ => false

end Binary64

end Montage
