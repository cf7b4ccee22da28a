import Montage.Number.Binary64

/-!
# Scalars

Times, percentages and positions are computed either in binary64, as a render does, or in exact
rational arithmetic, as an editor means them. `Scalar` is what the computation needs of a number
type; everything from the clip to the compiled graph is written over it once.
-/
namespace Montage

/-- A number type that a timeline can be computed in. -/
class Scalar (α : Type) extends Add α, Sub α, Mul α, Div α, LE α, LT α where
  decidableLE : DecidableLE α
  decidableLT : DecidableLT α
  /-- The number nearest to a quotient with a positive denominator. -/
  ratio : Int → Nat → α
  /-- Whether the number stands for one amount, and not for an overflow or for no number. -/
  isFinite : α → Bool
  /-- The greatest integer not above the number. -/
  floor : α → Except ConversionError Int

namespace Scalar

variable {α : Type} [Scalar α]

instance : DecidableLE α := decidableLE
instance : DecidableLT α := decidableLT

/-- The first number unless the second is greater. -/
def larger (a b : α) : α := if a < b then b else a

/-- The first number unless the second is less. -/
def smaller (a b : α) : α := if b < a then b else a

/-- Equality by order: a number that is not comparable with itself equals nothing. -/
def equal (a b : α) : Bool := decide (a ≤ b) && decide (b ≤ a)

def nat (n : Nat) : α := ratio n 1

/-- The number nearest to an integer, where there is a finite one. -/
def ofInt (n : Int) : Except ConversionError α :=
  let a : α := ratio n 1
  if isFinite a then .ok a else .error .integerTooLarge

/-- The number nearest to a quotient of integers, where there is a finite one. -/
def quotient (num : Int) (den : Nat) : Except ConversionError α :=
  let a : α := ratio num den
  if isFinite a then .ok a else .error .quotientTooLarge

/-- The nearest integer, a half upward. -/
def roundHalfUp (a : α) : Except ConversionError Int := floor (a + ratio 1 2)

end Scalar

instance : Scalar Binary64 where
  decidableLE := inferInstance
  decidableLT := inferInstance
  ratio := Binary64.ofRatio
  isFinite := Binary64.isFinite
  floor := Binary64.floor

instance : Scalar Rat where
  decidableLE := fun _ _ => inferInstance
  decidableLT := fun _ _ => inferInstance
  ratio n d := (n : Rat) / (d : Rat)
  isFinite _ := true
  floor a := .ok a.floor

end Montage
