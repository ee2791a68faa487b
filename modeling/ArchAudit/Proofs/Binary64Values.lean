-- SUMMARY: Binary64 numbers as exact rationals: how they are packed, compared and rounded up.
import ArchAudit.Number.Scalar
import Mathlib.Algebra.Order.Field.Power
import Mathlib.Algebra.Order.Field.Rat
import Mathlib.Tactic.NormNum
import Mathlib.Tactic.Positivity
import Mathlib.Tactic.Ring

/-!
# Exact values of binary64 numbers

What the bits of a binary64 number stand for, as a rational number, and what becomes of it
when numbers are packed into bits, compared with each other and rounded up to a word.
-/

namespace ArchAudit

open Float.Model (UnpackedFloat Format)
open Float.Model.UnpackedFloat (Sign packComponents unpackExponent unpackMantissa unpackSign)

namespace Dyadic

open Binary64 (hiddenBit leastExponent)

/-- The absolute value. -/
def magnitude (d : Dyadic) : ℚ :=
  d.significand * 2 ^ d.exponent

theorem numerator_div_denominator (d : Dyadic) :
    (d.numerator : ℚ) / d.denominator = d.magnitude := by
  have hsplit : d.exponent = d.exponent.toNat - (-d.exponent).toNat := by omega
  have hpow : (2 : ℚ) ^ d.exponent = 2 ^ d.exponent.toNat / 2 ^ (-d.exponent).toNat := by
    conv_lhs => rw [hsplit]
    rw [zpow_sub₀ two_ne_zero, zpow_natCast, zpow_natCast]
  rw [magnitude, hpow, numerator, denominator, Nat.shiftLeft_eq, Nat.shiftLeft_eq]
  push_cast
  ring

/-- Rounding up gives the least number that is not below. -/
theorem ceil_le_iff {d : Dyadic} (h : d.negative = false) (n : ℕ) :
    d.ceil ≤ n ↔ d.magnitude ≤ n := by
  have hpos := d.denominator_pos
  have hceil : d.ceil = (d.numerator + d.denominator - 1) / d.denominator := if_neg (by simp [h])
  rw [hceil, Nat.div_le_iff_le_mul_add_pred hpos, ← numerator_div_denominator,
    div_le_iff₀ (by exact_mod_cast hpos)]
  norm_cast
  rw [Nat.mul_comm]
  omega

theorem ceil_mono {d d' : Dyadic} (h : d.negative = false) (h' : d'.negative = false)
    (hle : d.magnitude ≤ d'.magnitude) : d.ceil ≤ d'.ceil :=
  (ceil_le_iff h _).2 (hle.trans ((ceil_le_iff h' _).1 le_rfl))

/-- The one way of writing a number with at most 53 bits: the leading bit is set unless the
    exponent is the least one. There is no greatest exponent yet. -/
structure Canonical (d : Dyadic) : Prop where
  significand_lt : d.significand < 2 * hiddenBit
  leastExponent_le : leastExponent ≤ d.exponent
  normal : hiddenBit ≤ d.significand ∨ d.exponent = leastExponent

theorem hiddenBit_eq : (hiddenBit : ℚ) = 2 ^ (52 : ℤ) := by
  norm_num [hiddenBit]

theorem Canonical.magnitude_lt {d : Dyadic} (h : d.Canonical) :
    d.magnitude < 2 ^ (d.exponent + 53) := by
  have hlt : (d.significand : ℚ) < 2 ^ (53 : ℤ) := by
    have := h.significand_lt
    norm_num
    exact_mod_cast this
  rw [magnitude, add_comm, zpow_add₀ two_ne_zero]
  exact mul_lt_mul_of_pos_right hlt (by positivity)

/-- Numbers are ordered by their exponents first. -/
theorem Canonical.magnitude_lt_of_exponent_lt {d d' : Dyadic} (h : d.Canonical)
    (h' : d'.Canonical) (hlt : d.exponent < d'.exponent) : d.magnitude < d'.magnitude := by
  have hnormal : hiddenBit ≤ d'.significand := by
    apply h'.normal.resolve_right
    have := h.leastExponent_le
    omega
  calc d.magnitude
    _ < 2 ^ (d.exponent + 53) := h.magnitude_lt
    _ ≤ 2 ^ (52 + d'.exponent) := zpow_le_zpow_right₀ one_le_two (by omega)
    _ = hiddenBit * 2 ^ d'.exponent := by rw [zpow_add₀ two_ne_zero, hiddenBit_eq]
    _ ≤ d'.magnitude := by
      unfold magnitude
      gcongr

theorem Canonical.magnitude_le_iff {d d' : Dyadic} (h : d.Canonical) (h' : d'.Canonical) :
    d.magnitude ≤ d'.magnitude ↔
      d.exponent < d'.exponent ∨ d.exponent = d'.exponent ∧ d.significand ≤ d'.significand := by
  rcases lt_trichotomy d.exponent d'.exponent with hlt | heq | hgt
  · exact iff_of_true (h.magnitude_lt_of_exponent_lt h' hlt).le (.inl hlt)
  · have hpos : (0 : ℚ) < 2 ^ d'.exponent := by positivity
    rw [magnitude, magnitude, heq, mul_le_mul_iff_left₀ hpos, Nat.cast_le]
    simp
  · refine iff_of_false (not_le.2 (h'.magnitude_lt_of_exponent_lt h hgt)) ?_
    omega

end Dyadic

namespace Binary64

/-- What an unpacked number stands for. -/
def ofUnpacked : UnpackedFloat → Binary64
  | .infinity s => .infinite (s == .negative)
  | .notANumber => .notANumber
  | .zero s => .finite ⟨s == .negative, 0, leastExponent⟩
  | .finite s m e _ => .finite ⟨s == .negative, m, e⟩

/-- Reads a number off its sign, its biased exponent and its fraction. -/
def ofFields (s : Sign) (biased : BitVec 11) (fraction : BitVec 52) : Binary64 :=
  if biased = -1#11 then
    if fraction = 0#52 then .infinite (s == .negative) else .notANumber
  else if biased = 0#11 then
    .finite ⟨s == .negative, fraction.toNat, leastExponent⟩
  else
    .finite ⟨s == .negative, fraction.toNat + hiddenBit, (biased.toNat : Int) - 1075⟩

theorem ofBits_toNat (b : BitVec Format.binary64.numBits) :
    ofBits b.toNat =
      ofFields (Sign.ofBitVec (unpackSign b)) (unpackExponent b) (unpackMantissa b) := by
  have hexponent : (unpackExponent b).toNat = b.toNat / hiddenBit % 0x800 := by
    simp [unpackExponent, Nat.shiftRight_eq_div_pow, hiddenBit]
  have hmantissa : (unpackMantissa b).toNat = b.toNat % hiddenBit := by
    simp [unpackMantissa, hiddenBit]
  have hsign : (unpackSign b).toNat = b.toNat / signBit % 2 := by
    change (BitVec.extractLsb' 63 1 b).toNat = _
    simp [Nat.shiftRight_eq_div_pow, signBit]
  have hnegative : (Sign.ofBitVec (unpackSign b) == .negative) = (b.toNat / signBit % 2 == 1) := by
    rw [← hsign]
    generalize unpackSign b = s
    revert s
    decide
  have hones : unpackExponent b = -1#11 ↔ b.toNat / hiddenBit % 0x800 = 2047 := by
    rw [← hexponent, ← BitVec.toNat_inj]
    rfl
  have hzeros : unpackExponent b = 0#11 ↔ b.toNat / hiddenBit % 0x800 = 0 := by
    rw [← hexponent, ← BitVec.toNat_inj]
    rfl
  have hnone : unpackMantissa b = 0#52 ↔ b.toNat % hiddenBit = 0 := by
    rw [← hmantissa, ← BitVec.toNat_inj]
    rfl
  simp only [ofBits, ofFields, hnegative, hones, hzeros, hnone, hexponent, hmantissa]

theorem ofUnpacked_unpack (b : BitVec Format.binary64.numBits) :
    ofUnpacked (UnpackedFloat.unpack Format.binary64 b) = ofBits b.toNat := by
  have happend : (1#1 ++ unpackMantissa b).toNat = (unpackMantissa b).toNat + hiddenBit := by
    rw [BitVec.toNat_append, ← Nat.shiftLeft_add_eq_or_of_lt (unpackMantissa b).isLt, Nat.add_comm]
    rfl
  rw [ofBits_toNat, ofFields]
  delta UnpackedFloat.unpack
  dsimp only
  rw [apply_ite ofUnpacked, apply_ite ofUnpacked, apply_ite ofUnpacked, apply_dite ofUnpacked]
  dsimp only [ofUnpacked]
  split_ifs with hones hnone hzeros hnone
  · rfl
  · rfl
  · rw [hnone]
    rfl
  · rw [hzeros]
    rfl
  · rw [happend]
    rfl

theorem ofFloat_eq_ofUnpacked (x : Float) : ofFloat x = ofUnpacked x.toModel.unpack :=
  (ofUnpacked_unpack _).symm

theorem canonical_of_ofBits {bits : Nat} {d : Dyadic} (h : ofBits bits = .finite d) :
    d.Canonical := by
  have hfraction : bits % hiddenBit < hiddenBit := Nat.mod_lt _ (by decide)
  unfold ofBits at h
  dsimp only at h
  split_ifs at h with _ _ hzeros
  · cases h
    exact ⟨by dsimp only; omega, le_rfl, .inr rfl⟩
  · cases h
    refine ⟨by dsimp only; omega, ?_, .inl (Nat.le_add_left _ _)⟩
    dsimp only [leastExponent]
    omega

/-! ## Packing -/

theorem ofBits_packComponents (s : Sign) (biased : BitVec 11) (fraction : BitVec 52) :
    ofBits (packComponents Format.binary64 s biased fraction).toNat =
      ofFields s biased fraction := by
  -- the sign is the part above the exponent and the fraction
  have hsign : Sign.ofBitVec (unpackSign (packComponents Format.binary64 s biased fraction)) = s := by
    change Sign.ofBitVec (BitVec.extractLsb' 63 1 (s.toBitVec ++ biased ++ fraction)) = s
    rw [BitVec.extractLsb'_append_eq_of_le (by decide),
      BitVec.extractLsb'_append_eq_of_le (by decide)]
    cases s <;> rfl
  rw [ofBits_toNat, hsign, UnpackedFloat.unpackExponent_packComponents,
    UnpackedFloat.unpackMantissa_packComponents]

/-- A canonical number is packed without loss unless its exponent is too great. -/
theorem ofBits_pack {s : Sign} {m : Nat} {e : Int} {hm : 0 < m}
    (h : Dyadic.Canonical ⟨s == .negative, m, e⟩) (he : e ≤ 971) :
    ofBits (UnpackedFloat.pack Format.binary64 (.finite s m e hm)).toNat =
      .finite ⟨s == .negative, m, e⟩ := by
  obtain ⟨hlt, hleast, hnormal⟩ := h
  dsimp only [hiddenBit, leastExponent] at hlt hleast hnormal
  have hbiased : ¬ 2 ^ 11 ≤ (e + (1023 : ℕ) + (52 : ℕ)).toNat + 1 := by omega
  by_cases hbit : hiddenBit ≤ m
  · have hlog : m.log2 + 1 = 53 := by
      rw [Nat.succ_inj, Nat.log2_eq_iff hm.ne']
      exact ⟨hbit, hlt⟩
    have hpack : UnpackedFloat.pack Format.binary64 (.finite s m e hm) =
        packComponents Format.binary64 s (BitVec.ofNat 11 (e + (1023 : ℕ) + (52 : ℕ)).toNat)
          (BitVec.ofNat 52 m) := (if_neg hbiased).trans (if_pos hlog)
    rw [hpack, ofBits_packComponents, ofFields, if_neg, if_neg]
    · simp only [BitVec.toNat_ofNat, hiddenBit]
      rw [hiddenBit] at hbit
      congr 2 <;> omega
    · rw [← BitVec.toNat_inj, BitVec.toNat_ofNat, BitVec.toNat_ofNat]
      omega
    · rw [← BitVec.toNat_inj, BitVec.toNat_ofNat]
      simp
      omega
  · have hlog : m.log2 + 1 ≠ 53 := by
      rw [Ne, Nat.succ_inj, Nat.log2_eq_iff hm.ne']
      exact fun h => hbit h.1
    have hpack : UnpackedFloat.pack Format.binary64 (.finite s m e hm) =
        packComponents Format.binary64 s 0#11 (BitVec.ofNat 52 m) :=
      (if_neg hbiased).trans (if_neg hlog)
    have hm' : m % 2 ^ 52 = m := Nat.mod_eq_of_lt (not_le.1 hbit)
    rw [hpack, ofBits_packComponents, ofFields, if_neg (by decide), if_pos rfl, BitVec.toNat_ofNat,
      hm', hnormal.resolve_left hbit]
    rfl

theorem ofBits_pack_of_overflow {s : Sign} {m : Nat} {e : Int} {hm : 0 < m} (he : 971 < e) :
    ofBits (UnpackedFloat.pack Format.binary64 (.finite s m e hm)).toNat =
      .infinite (s == .negative) := by
  have hbiased : 2 ^ 11 ≤ (e + (1023 : ℕ) + (52 : ℕ)).toNat + 1 := by omega
  have hpack : UnpackedFloat.pack Format.binary64 (.finite s m e hm) =
      packComponents Format.binary64 s (-1#11) 0#52 := if_pos hbiased
  rw [hpack, ofBits_packComponents]
  rfl

/-! ## Order -/

theorem lt_iff_unpack_lt (x y : Float) : x < y ↔ x.toModel.unpack.lt y.toModel.unpack = true :=
  decide_eq_true_iff

theorem le_iff_unpack_le (x y : Float) : x ≤ y ↔ x.toModel.unpack.le y.toModel.unpack = true :=
  decide_eq_true_iff

theorem unpack_zero : (0.0 : Float).toModel.unpack = .zero .positive :=
  rfl

theorem unpack_one :
    (1.0 : Float).toModel.unpack = .finite .positive hiddenBit (-52) (by decide) :=
  rfl

theorem canonical_of_unpack {x : Float} {s : Sign} {m : Nat} {e : Int} {hm : 0 < m}
    (h : x.toModel.unpack = .finite s m e hm) : Dyadic.Canonical ⟨s == .negative, m, e⟩ := by
  have hfloat : ofFloat x = .finite ⟨s == .negative, m, e⟩ := by
    rw [ofFloat_eq_ofUnpacked, h]
    rfl
  exact canonical_of_ofBits hfloat

theorem not_lt_zero {x : Float} (hx : 0.0 ≤ x) : ¬ x < 0.0 := by
  rw [le_iff_unpack_le, unpack_zero] at hx
  rw [lt_iff_unpack_lt, unpack_zero]
  revert hx
  generalize x.toModel.unpack = u
  rcases u with (_ | _) | _ | _ | ⟨_ | _⟩ <;> intro hle hlt
  case infinity.positive | zero | finite.positive => cases hlt
  all_goals cases hle

theorem unpack_of_pos {x : Float} (hx : 0.0 < x) : x.toModel.unpack = .infinity .positive ∨
    ∃ m e hm, x.toModel.unpack = .finite .positive m e hm := by
  rw [lt_iff_unpack_lt, unpack_zero] at hx
  revert hx
  generalize x.toModel.unpack = u
  rcases u with (_ | _) | _ | _ | ⟨_ | _, m, e, hm⟩ <;> intro hlt
  case infinity.positive => exact .inl rfl
  case finite.positive => exact .inr ⟨m, e, hm, rfl⟩
  all_goals cases hlt

theorem pos_of_pos_of_le {x y : Float} (hx : 0.0 < x) (hxy : x ≤ y) : 0.0 < y := by
  rw [lt_iff_unpack_lt, unpack_zero]
  rw [le_iff_unpack_le] at hxy
  revert hxy
  generalize y.toModel.unpack = u
  obtain hx | ⟨m, e, hm, hx⟩ := unpack_of_pos hx
  · rw [hx]
    rcases u with (_ | _) | _ | _ | ⟨_ | _⟩ <;> intro hle
    case infinity.positive => rfl
    all_goals cases hle
  · rw [hx]
    rcases u with (_ | _) | _ | _ | ⟨_ | _⟩ <;> intro hle
    case infinity.positive | finite.positive => rfl
    all_goals cases hle

/-- A positive number that is at most a finite one is finite. -/
theorem exists_unpack_of_pos_of_le {x y : Float} {s : Sign} {m : Nat} {e : Int} {hm : 0 < m}
    (hx : 0.0 < x) (hxy : x ≤ y) (hy : y.toModel.unpack = .finite s m e hm) :
    ∃ m e hm, x.toModel.unpack = .finite .positive m e hm := by
  rcases unpack_of_pos hx with hinfinite | hfinite
  · rw [le_iff_unpack_le, hinfinite, hy] at hxy
    cases s <;> cases hxy
  · exact hfinite

theorem le_iff_magnitude_le {x y : Float} {m m' : Nat} {e e' : Int} {hm : 0 < m} {hm' : 0 < m'}
    (hx : x.toModel.unpack = .finite .positive m e hm)
    (hy : y.toModel.unpack = .finite .positive m' e' hm') :
    x ≤ y ↔ Dyadic.magnitude ⟨false, m, e⟩ ≤ Dyadic.magnitude ⟨false, m', e'⟩ := by
  refine Iff.trans ?_ ((canonical_of_unpack hx).magnitude_le_iff (canonical_of_unpack hy)).symm
  rw [le_iff_unpack_le, hx, hy]
  change ((compare e e').then (compare m m')).isLE = true ↔ _
  simp [Ordering.isLE_then_iff_or, Nat.isLE_compare, Int.compare_eq_lt]

/-! ## Rounding up -/

/-- What a number stands for, rounded up to a word. -/
def ceil : Binary64 → Nat
  | .notANumber => 0
  | .infinite negative => if negative then 0 else greatestWord
  | .finite d => Nat.min d.ceil greatestWord

theorem ceilNat_eq_ceil (x : Float) : ceilNat x = (ofFloat x).ceil := by
  unfold ceilNat ceil
  split <;> simp_all

theorem ceil_of_overflow {s : Sign} {m : Nat} {e : Int}
    (h : Dyadic.Canonical ⟨s == .negative, m, e⟩) (he : 971 < e) :
    ceil (.finite ⟨s == .negative, m, e⟩) = ceil (.infinite (s == .negative)) := by
  cases s with
  | negative => rfl
  | positive =>
    apply Nat.min_eq_right
    by_contra hlt
    have hword : Dyadic.magnitude ⟨false, m, e⟩ ≤ greatestWord :=
      (Dyadic.ceil_le_iff rfl greatestWord).1 (not_le.1 hlt).le
    have hbit : 1 ≤ m := by
      rcases h.normal with hbit | hleast
      · exact Nat.one_le_of_lt hbit
      · simp only [leastExponent] at hleast
        omega
    have hgreat : (greatestWord : ℚ) < Dyadic.magnitude ⟨false, m, e⟩ := by
      calc (greatestWord : ℚ)
        _ < 2 ^ (64 : ℤ) := by norm_num [greatestWord]
        _ ≤ 2 ^ e := zpow_le_zpow_right₀ one_le_two (by omega)
        _ ≤ m * 2 ^ e := le_mul_of_one_le_left (by positivity) (by exact_mod_cast hbit)
    exact absurd hword (not_le.2 hgreat)

/-- Words are too small for rounding up to tell numbers of too great an exponent from infinity. -/
theorem ceilNat_pack {u : UnpackedFloat} (h : ∀ d, ofUnpacked u = .finite d → d.Canonical) :
    ceilNat ⟨Float.Model.pack u⟩ = (ofUnpacked u).ceil := by
  rw [ceilNat_eq_ceil]
  change (ofBits (UnpackedFloat.pack Format.binary64 u).toNat).ceil = _
  cases u with
  | infinity s => cases s <;> rfl
  | notANumber => rfl
  | zero s => cases s <;> rfl
  | finite s m e hm =>
    by_cases he : e ≤ 971
    · rw [ofBits_pack (h _ rfl) he]
      rfl
    · rw [ofBits_pack_of_overflow (not_le.1 he)]
      exact (ceil_of_overflow (h _ rfl) (not_le.1 he)).symm

end Binary64

end ArchAudit
