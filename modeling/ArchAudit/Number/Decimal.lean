-- SUMMARY: Decimal text of binary64 numbers: fewest digits that read back, fixed places, and reading a decimal.
import ArchAudit.Number.Dyadic

/-!
# Decimal text

`Dyadic.shortest` finds the fewest significant digits whose decimal rounds back
to a given number; a `Layout` says how such digits are written. `fixedText`
writes an exact quotient with a fixed number of places. `Decimal.toFloat` reads
a decimal, rounding once.
-/

namespace ArchAudit

/-- The decimal `±digits · 10^exponent`. -/
structure Decimal where
  negative : Bool
  digits : Nat
  exponent : Int
deriving DecidableEq, Repr

-- ---------------------------------------------------------------------------
-- Fewest digits
-- ---------------------------------------------------------------------------

/-- Which neighbour is taken when two candidates are equally near. -/
inductive Tie where
  | even
  | up
deriving DecidableEq, Repr

/-- The number of decimal digits of `n`; zero has one. -/
def digitCount (n : Nat) : Nat :=
  (Nat.toDigits 10 n).length

def powerOfTen (k : Nat) : Nat :=
  Nat.pow 10 k

/-- The exponent `e` with `10^(e-1) ≤ num/den < 10^e`, for a positive quotient.
    The guess from the binary lengths is off by at most one step. -/
def decimalMagnitude (num den : Nat) : Int :=
  let guess : Int := ((num.log2 : Int) - (den.log2 : Int)) * 30103 / 100000
  let below (e : Int) : Bool :=
    decide (num * powerOfTen (-e).toNat < den * powerOfTen e.toNat)
  ([guess - 1, guess, guess + 1].find? below).getD (guess + 2)

/-- Whether the quotient `floor + rest/den` is written as the floor plus one, where
    both neighbours will do. -/
def Tie.takesHigh (tie : Tie) (floor rest den : Nat) : Bool :=
  if 2 * rest < den then false
  else if den < 2 * rest then true
  else match tie with
    | .up => true
    | .even => floor % 2 = 1

namespace Dyadic

/-- Whether the distance is at most `1/factor` of a value of `num` units. The ends
    count exactly if the significand is even. -/
def within (d : Dyadic) (num distance factor : Nat) : Bool :=
  if d.significand % 2 = 0 then distance * factor ≤ num else distance * factor < num

/-- Looks for a decimal of `count` significant digits that rounds back to the
    value. In units of the last digit the value is `num/den`; its neighbours are
    the floor and the floor plus one. A neighbour rounds back if its distance is
    at most half a unit in the last binary place, which is `1/(2m)` of the value
    above and the same below, or half of that below the least significand of a
    binade, for the significand `m`. -/
def candidate (d : Dyadic) (tie : Tie) (magnitude : Int) (count : Nat) : Option Decimal :=
  let unit : Int := magnitude - count
  let num := d.numerator * powerOfTen (-unit).toNat
  let den := d.denominator * powerOfTen unit.toNat
  let floor := num / den
  let rest := num % den
  let narrow := d.significand = Binary64.hiddenBit ∧ Binary64.leastExponent < d.exponent
  let low := d.within num rest ((if narrow then 4 else 2) * d.significand)
  let high := d.within num (den - rest) (2 * d.significand)
  if low && high then
    some ⟨d.negative, if tie.takesHigh floor rest den then floor + 1 else floor, unit⟩
  else if low then some ⟨d.negative, floor, unit⟩
  else if high then some ⟨d.negative, floor + 1, unit⟩
  else none

/-- The decimal of fewest digits that rounds back to the value, and of those the
    nearest. Seventeen digits always suffice. -/
def shortest (d : Dyadic) (tie : Tie) : Decimal :=
  if d.significand = 0 then ⟨d.negative, 0, 0⟩
  else
    let magnitude := decimalMagnitude d.numerator d.denominator
    ((List.range 17).findSome? fun k => d.candidate tie magnitude (k + 1)).getD
      ⟨d.negative, d.numerator, 0⟩

end Dyadic

-- ---------------------------------------------------------------------------
-- Layout
-- ---------------------------------------------------------------------------

/-- How the digits of a number are written. -/
structure Layout where
  /-- Which of two equally near decimals is written. -/
  tie : Tie
  /-- A decimal point position outside these bounds is written with an exponent. -/
  positional : Option (Int × Int)
  /-- Whether a whole number ends in `.0`. -/
  keepsFraction : Bool
  notANumber : String
  infinite : String
  negativeInfinite : String
deriving Repr

/-- Digits without trailing zeros, with the exponent adjusted. The fuel bounds
    the number of zeros dropped. -/
def dropZeros : Nat → Nat → Int → Nat × Int
  | 0, digits, exponent => (digits, exponent)
  | fuel + 1, digits, exponent =>
    if digits ≠ 0 ∧ digits % 10 = 0 then dropZeros fuel (digits / 10) (exponent + 1)
    else (digits, exponent)

namespace Decimal

def zeros (n : Nat) : List Char := List.replicate n '0'

/-- Positional notation: the whole part, and the fraction if there is one. -/
def positional (ds : List Char) (exponent : Int) (keepsFraction : Bool) : List Char :=
  let point : Int := ds.length + exponent
  if 0 ≤ exponent then
    ds ++ zeros exponent.toNat ++ (if keepsFraction then ['.', '0'] else [])
  else if 0 < point then
    ds.take point.toNat ++ '.' :: ds.drop point.toNat
  else
    '0' :: '.' :: zeros (-point).toNat ++ ds

/-- One digit, the fraction if there is one, and a signed exponent. -/
def scientific (ds : List Char) (exponent : Int) : List Char :=
  let power : Int := ds.length + exponent - 1
  let tail := ds.drop 1
  ds.take 1 ++ (if tail.isEmpty then [] else '.' :: tail)
    ++ 'e' :: (if power < 0 then '-' else '+') :: Nat.toDigits 10 power.natAbs

/-- The text of a decimal under a layout. -/
def text (x : Decimal) (layout : Layout) : String :=
  let (digits, exponent) := dropZeros 400 x.digits x.exponent
  let ds := Nat.toDigits 10 digits
  let point : Int := ds.length + exponent
  let plain := match layout.positional with
    | none => true
    | some (least, greatest) => digits = 0 || (least ≤ point && point ≤ greatest)
  let body :=
    if plain then positional ds exponent layout.keepsFraction else scientific ds exponent
  String.ofList (if x.negative then '-' :: body else body)

end Decimal

/-- The text of a binary64 number under a layout. -/
def Layout.text (layout : Layout) (x : Float) : String :=
  match Binary64.ofFloat x with
  | .notANumber => layout.notANumber
  | .infinite false => layout.infinite
  | .infinite true => layout.negativeInfinite
  | .finite d => (d.shortest layout.tie).text layout

/-- Positional throughout, without a fraction on whole numbers. -/
def Layout.plain : Layout :=
  { tie := .up, positional := none, keepsFraction := false
    notANumber := "NaN", infinite := "inf", negativeInfinite := "-inf" }

/-- Positional from `0.00001` up to sixteen whole digits, with an exponent
    elsewhere; a number always shows a fraction or an exponent. -/
def Layout.interchange : Layout :=
  { tie := .even, positional := some (-4, 16), keepsFraction := true
    notANumber := "null", infinite := "null", negativeInfinite := "null" }

-- ---------------------------------------------------------------------------
-- Fixed places
-- ---------------------------------------------------------------------------

/-- The quotient `±num/den` with `places` digits after the point, the last one
    rounded half to even. The sign is kept also when all digits are zero. -/
def fixedText (negative : Bool) (num den places : Nat) : String :=
  let scaled := roundHalfEven (num * powerOfTen places) den
  let ds := Nat.toDigits 10 scaled
  let padded := Decimal.zeros (places + 1 - ds.length) ++ ds
  let whole := padded.take (padded.length - places)
  let fraction := padded.drop (padded.length - places)
  String.ofList ((if negative then ['-'] else []) ++ whole
    ++ (if fraction.isEmpty then [] else '.' :: fraction))

/-- A binary64 number with a fixed number of places. -/
def Layout.fixed (x : Float) (places : Nat) : String :=
  match Binary64.ofFloat x with
  | .notANumber => "NaN"
  | .infinite negative => if negative then "-inf" else "inf"
  | .finite d => fixedText d.negative d.numerator d.denominator places

-- ---------------------------------------------------------------------------
-- Reading
-- ---------------------------------------------------------------------------

/-- The binary64 number nearest to a decimal; infinite if it is out of range.
    Exponents far outside the range are settled before any power is taken. -/
def Decimal.toFloat (x : Decimal) : Float :=
  let top : Int := digitCount x.digits + x.exponent
  let size : Float :=
    if x.digits = 0 ∨ top < -400 then 0.0
    else if 400 < top then 1.0 / 0.0
    else if x.exponent < 0 then Float.ofScientific x.digits true x.exponent.natAbs
    else Float.ofScientific x.digits false x.exponent.natAbs
  if x.negative then -size else size

end ArchAudit
