-- SUMMARY: Exact values of binary64 numbers: sign, significand and power of two, and the rounding of exact quotients.

/-!
# Dyadic values

A finite binary64 number is `±m · 2^q` with natural `m` and integer `q`. Every
text form of a number is computed from that exact value, in `Nat` arithmetic.
-/

namespace ArchAudit

/-- The greatest natural number that fits a machine word. -/
def greatestWord : Nat := 0xFFFFFFFFFFFFFFFF

/-- The word of which only the highest bit is set. A machine word with a sign has at
    least the negative of it. -/
def signBit : Nat := 0x8000000000000000

-- ---------------------------------------------------------------------------
-- Exact value of a binary64 number
-- ---------------------------------------------------------------------------

/-- The number `±significand · 2^exponent`. -/
structure Dyadic where
  negative : Bool
  significand : Nat
  exponent : Int
deriving DecidableEq, Repr

/-- What a binary64 number stands for. -/
inductive Binary64 where
  | finite (value : Dyadic)
  | infinite (negative : Bool)
  | notANumber
deriving DecidableEq, Repr

namespace Binary64

/-- The least exponent of a binary64 number, shared by all subnormal numbers. -/
def leastExponent : Int := -1074

/-- The leading bit of a significand that is not subnormal, which is not stored. -/
def hiddenBit : Nat := 0x10000000000000

/-- Reads sign, biased exponent and fraction off the bit pattern. -/
def ofBits (bits : Nat) : Binary64 :=
  let negative := bits / signBit % 2 == 1
  let biased : Nat := bits / hiddenBit % 0x800
  let fraction : Nat := bits % hiddenBit
  if biased = 2047 then
    if fraction = 0 then .infinite negative else .notANumber
  else if biased = 0 then
    .finite ⟨negative, fraction, leastExponent⟩
  else
    .finite ⟨negative, fraction + hiddenBit, (biased : Int) - 1075⟩

/-- The exact value of a floating point number. -/
def ofFloat (x : Float) : Binary64 :=
  ofBits x.toBits.toNat

end Binary64

-- ---------------------------------------------------------------------------
-- Quotients
-- ---------------------------------------------------------------------------

namespace Dyadic

/-- Numerator of the absolute value as a quotient of natural numbers. -/
def numerator (d : Dyadic) : Nat :=
  d.significand <<< d.exponent.toNat

/-- Denominator of the absolute value; it is a power of two. -/
def denominator (d : Dyadic) : Nat :=
  1 <<< (-d.exponent).toNat

theorem denominator_pos (d : Dyadic) : 0 < d.denominator := by
  rw [denominator, Nat.one_shiftLeft]
  exact Nat.two_pow_pos _

/-- The least natural number that is not below the value, and `0` for a
    negative one. -/
def ceil (d : Dyadic) : Nat :=
  if d.negative then 0 else (d.numerator + d.denominator - 1) / d.denominator

end Dyadic

/-- The quotient rounded to the nearest natural number, a half going to the
    even neighbour. -/
def roundHalfEven (num den : Nat) : Nat :=
  let floor := num / den
  let twice := 2 * (num % den)
  if twice < den then floor
  else if den < twice then floor + 1
  else if floor % 2 = 0 then floor else floor + 1

end ArchAudit
