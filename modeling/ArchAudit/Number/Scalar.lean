-- SUMMARY: The arithmetic that scores are computed in, as a class with binary64 and exact rational instances.
import ArchAudit.Number.Decimal

/-!
# Scalars

Scores, ratios and severities are computed by formulas that name only the
operations of `Scalar`. The program runs them in binary64; the same formulas read
in `Rat` give the exact values that they approximate.
-/

namespace ArchAudit

/-- The operations that scoring uses. -/
class Scalar (α : Type) extends
    Add α, Sub α, Mul α, Div α, LT α, LE α, OfScientific α, NatCast α where
  decLt : DecidableLT α
  decLe : DecidableLE α
  /-- The neutral element of addition, from which sums start: in binary64 this is
      `-0.0`, the only number that leaves every other one unchanged. -/
  sumStart : α
  isFinite : α → Bool
  /-- The least natural number not below the argument; `0` for a negative or
      undefined argument. -/
  ceilNat : α → Nat
  /-- A total order, also on undefined values. -/
  totalCompare : α → α → Ordering
  /-- Text with a fixed number of places, a half going to the even digit. -/
  fixedPlaces : α → Nat → String

namespace Scalar

variable {α : Type} [Scalar α]

instance : DecidableLT α := decLt

instance : DecidableLE α := decLe

/-- The smaller of two numbers; an undefined one gives way to the other. -/
def least (a b : α) : α :=
  if a ≤ b then a else if b ≤ b then b else a

/-- The nearest number between the two bounds; an undefined one stays. -/
def clamp (low high x : α) : α :=
  if x < low then low else if high < x then high else x

/-- The nearest number between zero and one. -/
def clampUnit (x : α) : α :=
  clamp 0.0 1.0 x

/-- The sum from left to right. -/
def sum (xs : List α) : α :=
  xs.foldl (· + ·) sumStart

/-- Whether `0 ≤ x ≤ 1`. -/
def inUnit (x : α) : Bool :=
  0.0 ≤ x && x ≤ 1.0

end Scalar

-- ---------------------------------------------------------------------------
-- Binary64
-- ---------------------------------------------------------------------------

namespace Binary64

/-- Rounds up to a natural number, staying between `0` and `greatestWord`. -/
def ceilNat (x : Float) : Nat :=
  match ofFloat x with
  | .notANumber => 0
  | .infinite negative => if negative then 0 else greatestWord
  | .finite d => Nat.min d.ceil greatestWord

/-- The key of the total order by sign and magnitude: negative numbers, with
    `-0.0` last, precede positive ones, with `0.0` first. -/
def orderKey (x : Float) : Int :=
  let bits := x.toBits.toNat
  if bits < signBit then bits else -1 - ((bits - signBit : Nat) : Int)

end Binary64

instance : Scalar Float where
  add := Float.add
  sub := Float.sub
  mul := Float.mul
  div := Float.div
  toLT := instLTFloat
  toLE := instLEFloat
  ofScientific := Float.ofScientific
  natCast := Float.ofNat
  decLt := Float.decLt
  decLe := Float.decLe
  sumStart := -0.0
  isFinite := Float.isFinite
  ceilNat := Binary64.ceilNat
  totalCompare a b := compare (Binary64.orderKey a) (Binary64.orderKey b)
  fixedPlaces x places := Layout.fixed x places

-- ---------------------------------------------------------------------------
-- Exact rationals
-- ---------------------------------------------------------------------------

instance : Scalar Rat where
  toAdd := Rat.instAdd
  toSub := Rat.instSub
  toMul := Rat.instMul
  toDiv := Rat.instDiv
  toLT := Rat.instLT
  toLE := Rat.instLE
  toOfScientific := Rat.instOfScientific
  toNatCast := Rat.instNatCast
  decLt := fun a b => Rat.instDecidableLt a b
  decLe := fun a b => Rat.instDecidableLe a b
  sumStart := Rat.ofInt 0
  isFinite _ := true
  ceilNat x := x.ceil.toNat
  totalCompare a b := if a.blt b then .lt else if b.blt a then .gt else .eq
  fixedPlaces x places := fixedText (x.num < 0) x.num.natAbs x.den places

end ArchAudit
