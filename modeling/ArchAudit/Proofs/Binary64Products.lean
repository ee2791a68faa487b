-- SUMMARY: Rounding to binary64 keeps the order, so shares of a number grow with the share.
import ArchAudit.Proofs.Binary64Values
import Mathlib.Tactic.Linarith

/-!
# Products of binary64 numbers

A product is the exact product rounded to the nearest number of 53 bits. Rounding keeps the
order of what is rounded, and so does taking shares of one number.
-/

namespace ArchAudit

namespace Binary64

open Float.Model (UnpackedFloat Format totalExponent)
open Float.Model.UnpackedFloat (Sign ExtendedMantissa Accuracy roundWithAccuracy shiftToExponent
  shiftToTargetExponent)

/-! ## Residual bits -/

/-- The number lies where the mantissa and its residual bits say. -/
def Represents (em : ExtendedMantissa) (x : ℚ) : Prop :=
  match em.accuracy with
  | .exact => x = em.mantissa
  | .inexact .lt => em.mantissa < x ∧ x < em.mantissa + 1 / 2
  | .inexact .eq => x = em.mantissa + 1 / 2
  | .inexact .gt => em.mantissa + 1 / 2 < x ∧ x < em.mantissa + 1

theorem Represents.shiftRightOne {em : ExtendedMantissa} {x : ℚ} (h : Represents em x) :
    Represents em.shiftRightOne (x / 2) := by
  obtain ⟨m, roundBit, stickyBit⟩ := em
  have hparity : (m : ℚ) = 2 * (m / 2 : ℕ) + (m % 2 : ℕ) := by
    exact_mod_cast (Nat.div_add_mod m 2).symm
  rcases Nat.mod_two_eq_zero_or_one m with hm | hm <;> rw [hm] at hparity <;>
    cases roundBit <;> cases stickyBit <;>
    simp [Represents, ExtendedMantissa.accuracy, ExtendedMantissa.shiftRightOne, hm]
      at h hparity ⊢ <;>
    (try constructor) <;> linarith

theorem Represents.shiftRight {em : ExtendedMantissa} {x : ℚ} (h : Represents em x) (k : ℕ) :
    Represents (em >>> k) (x / 2 ^ k) := by
  induction k with
  | zero =>
    rw [pow_zero, div_one]
    exact h
  | succ k ih =>
    rw [pow_succ, ← div_div]
    exact ih.shiftRightOne

theorem Represents.bounds {em : ExtendedMantissa} {x : ℚ} (h : Represents em x) :
    em.mantissa ≤ x ∧ x < em.mantissa + 1 := by
  obtain ⟨m, roundBit, stickyBit⟩ := em
  cases roundBit <;> cases stickyBit <;>
    simp only [Represents, ExtendedMantissa.accuracy] at h ⊢ <;>
    constructor <;> linarith

theorem roundedMantissa_bounds (em : ExtendedMantissa) :
    em.mantissa ≤ em.roundedMantissa ∧ em.roundedMantissa ≤ em.mantissa + 1 := by
  obtain ⟨m, roundBit, stickyBit⟩ := em
  cases roundBit <;> cases stickyBit <;>
    simp only [ExtendedMantissa.roundedMantissa, ExtendedMantissa.accuracy,
      Accuracy.roundToNearestEven] <;> omega

/-- Rounding goes to the nearest number, and to the even one of two. -/
theorem Represents.roundedMantissa_le_iff {em : ExtendedMantissa} {x : ℚ} (h : Represents em x)
    (n : ℕ) : em.roundedMantissa ≤ n ↔ x < n + 1 / 2 ∨ x = n + 1 / 2 ∧ n % 2 = 0 := by
  have hx := h.bounds
  have hrounded := roundedMantissa_bounds em
  rcases lt_trichotomy em.mantissa n with hlt | rfl | hlt
  · have hcast : (em.mantissa : ℚ) + 1 ≤ n := by exact_mod_cast hlt
    exact iff_of_true (by omega) (.inl (by linarith))
  · obtain ⟨m, roundBit, stickyBit⟩ := em
    cases roundBit <;> cases stickyBit <;>
      simp only [Represents, ExtendedMantissa.roundedMantissa, ExtendedMantissa.accuracy,
        Accuracy.roundToNearestEven] at h ⊢
    · exact iff_of_true le_rfl (.inl (by linarith))
    · exact iff_of_true le_rfl (.inl h.2)
    · simp [h]
    · refine iff_of_false (by omega) ?_
      rintro (hx | ⟨hx, -⟩) <;> linarith
  · have hcast : (n : ℚ) + 1 ≤ em.mantissa := by exact_mod_cast hlt
    refine iff_of_false (by omega) ?_
    rintro (hx | ⟨hx, -⟩) <;> linarith

/-! ## Order -/

/-- `r · 2^t` is the number `x` rounded to 53 bits, a half going to the even neighbour. -/
structure Rounds (x : ℚ) (t : ℤ) (r : ℕ) : Prop where
  nearest : ∀ n : ℕ, r ≤ n ↔ x / 2 ^ t < n + 1 / 2 ∨ x / 2 ^ t = n + 1 / 2 ∧ n % 2 = 0
  leastExponent_le : leastExponent ≤ t
  lt : x < 2 ^ (53 + t)
  le : 2 ^ (52 + t) ≤ x ∨ t = leastExponent

namespace Rounds

variable {x y : ℚ} {t u : ℤ} {r s : ℕ}

theorem le_two_pow (h : Rounds x t r) : r ≤ 2 ^ 53 := by
  rw [h.nearest]
  left
  have hlt := h.lt
  rw [zpow_add₀ two_ne_zero, ← div_lt_iff₀ (by positivity)] at hlt
  push_cast
  norm_num at hlt ⊢
  linarith

theorem hiddenBit_le (h : Rounds x t r) (hx : 2 ^ (52 + t) ≤ x) : hiddenBit ≤ r := by
  by_contra hlt
  have hr : x / 2 ^ t ≤ (hiddenBit - 1 : ℕ) + 1 / 2 := by
    rcases (h.nearest (hiddenBit - 1)).1 (by omega) with hr | ⟨hr, -⟩
    · exact hr.le
    · exact hr.le
  rw [zpow_add₀ two_ne_zero, ← le_div_iff₀ (by positivity)] at hx
  norm_num [hiddenBit] at hr hx
  linarith

theorem exponent_mono (h : Rounds x t r) (h' : Rounds y u s) (hxy : x ≤ y) : t ≤ u := by
  rcases h.le with hle | hleast
  · have hlt : (2 : ℚ) ^ (52 + t) < 2 ^ (53 + u) := hle.trans_lt (hxy.trans_lt h'.lt)
    rw [zpow_lt_zpow_iff_right₀ one_lt_two] at hlt
    omega
  · rw [hleast]
    exact h'.leastExponent_le

/-- Rounding keeps the order. -/
theorem mono (h : Rounds x t r) (h' : Rounds y u s) (hxy : x ≤ y) :
    (r : ℚ) * 2 ^ t ≤ s * 2 ^ u := by
  rcases (h.exponent_mono h' hxy).eq_or_lt with rfl | hlt
  · have hquotient : x / 2 ^ t ≤ y / 2 ^ t := by gcongr
    have hle : r ≤ s := by
      rw [h.nearest]
      rcases (h'.nearest s).1 le_rfl with hs | ⟨hs, heven⟩
      · exact .inl (hquotient.trans_lt hs)
      · rcases (hquotient.trans_eq hs).lt_or_eq with hlt | heq
        · exact .inl hlt
        · exact .inr ⟨heq, heven⟩
    gcongr
  · have hnormal : 2 ^ (52 + u) ≤ y := by
      apply h'.le.resolve_right
      have := h.leastExponent_le
      omega
    have hr : (r : ℚ) ≤ 2 ^ (53 : ℤ) := by exact_mod_cast h.le_two_pow
    have hs : (hiddenBit : ℚ) ≤ s := by exact_mod_cast h'.hiddenBit_le hnormal
    calc (r : ℚ) * 2 ^ t
      _ ≤ 2 ^ (53 : ℤ) * 2 ^ t := by gcongr
      _ = 2 ^ (53 + t) := (zpow_add₀ two_ne_zero _ _).symm
      _ ≤ 2 ^ (52 + u) := zpow_le_zpow_right₀ one_le_two (by omega)
      _ = hiddenBit * 2 ^ u := by rw [zpow_add₀ two_ne_zero, Dyadic.hiddenBit_eq]
      _ ≤ s * 2 ^ u := by gcongr

end Rounds

/-- The canonical number `d` has the absolute value that rounding `x` gives. -/
structure NearestTo (x : ℚ) (d : Dyadic) : Prop where
  canonical : d.Canonical
  rounds : ∃ t r, Rounds x t r ∧ d.magnitude = r * 2 ^ t

theorem NearestTo.magnitude_le {x y : ℚ} {d d' : Dyadic} (h : NearestTo x d) (h' : NearestTo y d')
    (hxy : x ≤ y) : d.magnitude ≤ d'.magnitude := by
  obtain ⟨t, r, hrounds, hmagnitude⟩ := h.rounds
  obtain ⟨t', r', hrounds', hmagnitude'⟩ := h'.rounds
  rw [hmagnitude, hmagnitude']
  exact hrounds.mono hrounds' hxy

/-! ## Mantissas -/

theorem targetExponent_binary64 (total : ℤ) :
    Format.binary64.targetExponent total = max (total - 53) leastExponent :=
  rfl

theorem targetExponent_eq (m : ℕ) (e : ℤ) :
    Format.binary64.targetExponent (totalExponent m e) = max (m.log2 + e - 52) leastExponent := by
  rw [targetExponent_binary64, totalExponent]
  omega

/-- Shifting to 53 bits and rounding gives the nearest number. -/
theorem Represents.rounds_shiftRight {em : ExtendedMantissa} {x : ℚ} {e t : ℤ}
    (h : Represents em x) (hm : 0 < em.mantissa ∨ e ≤ leastExponent)
    (ht : t = max (em.mantissa.log2 + e - 52) leastExponent) (he : e ≤ t) :
    Rounds (x * 2 ^ e) t (em >>> (t - e).toNat).roundedMantissa := by
  have hquotient : x * 2 ^ e / 2 ^ t = x / 2 ^ (t - e).toNat := by
    have hexponent : e - t = -((t - e).toNat : ℤ) := by omega
    rw [mul_div_assoc, ← zpow_sub₀ two_ne_zero, hexponent, zpow_neg, zpow_natCast, div_eq_mul_inv]
  have hbounds := h.bounds
  have hhigh : x < 2 ^ (em.mantissa.log2 + 1 : ℤ) := by
    have hlt : em.mantissa + 1 ≤ 2 ^ (em.mantissa.log2 + 1) := Nat.lt_log2_self
    exact hbounds.2.trans_le (by exact_mod_cast hlt)
  refine ⟨?_, by omega, ?_, ?_⟩
  · rw [hquotient]
    exact (h.shiftRight (t - e).toNat).roundedMantissa_le_iff
  · calc x * 2 ^ e
      _ < 2 ^ (em.mantissa.log2 + 1 : ℤ) * 2 ^ e := by gcongr
      _ = 2 ^ (em.mantissa.log2 + 1 + e) := (zpow_add₀ two_ne_zero _ _).symm
      _ ≤ 2 ^ (53 + t) := zpow_le_zpow_right₀ one_le_two (by omega)
  · by_cases hleast : t = leastExponent
    · exact .inr hleast
    · left
      have hpos : 0 < em.mantissa := by
        rcases hm with hpos | hexponent
        · exact hpos
        · refine Nat.pos_of_ne_zero fun hzero => hleast ?_
          rw [ht, hzero, Nat.log2_zero]
          omega
      have hlow : (2 : ℚ) ^ (em.mantissa.log2 : ℤ) ≤ em.mantissa := by
        exact_mod_cast Nat.log2_self_le hpos.ne'
      calc (2 : ℚ) ^ (52 + t)
        _ = 2 ^ (em.mantissa.log2 + e) := by
          congr 1
          omega
        _ = 2 ^ (em.mantissa.log2 : ℤ) * 2 ^ e := zpow_add₀ two_ne_zero _ _
        _ ≤ x * 2 ^ e := by
          gcongr
          exact hlow.trans hbounds.1

/-- A rounded mantissa fits once the carry out of its highest bit, if there is one, is taken
    in. -/
theorem Rounds.exists_shiftToTargetExponent {x : ℚ} {t : ℤ} {r : ℕ} (h : Rounds x t r)
    (negative : Bool) : ∃ d : Dyadic, d.negative = negative ∧ NearestTo x d ∧
      shiftToTargetExponent Format.binary64 r t .exact =
        (⟨d.significand, false, false⟩, d.exponent) := by
  have hleast := h.leastExponent_le
  rw [shiftToTargetExponent, targetExponent_eq, shiftToExponent]
  rcases h.le_two_pow.lt_or_eq with hlt | rfl
  · have hlog : r.log2 ≤ 52 := by
      by_cases hzero : r = 0
      · simp [hzero]
      · exact Nat.le_of_lt_succ ((Nat.log2_lt hzero).2 hlt)
    have hshift : (max (r.log2 + t - 52) leastExponent - t).toNat = 0 := by omega
    have hcanonical : Dyadic.Canonical ⟨negative, r, t⟩ :=
      ⟨hlt, hleast, h.le.imp_left h.hiddenBit_le⟩
    refine ⟨⟨negative, r, t⟩, rfl, ⟨hcanonical, t, r, h, rfl⟩, ?_⟩
    rw [hshift, Nat.cast_zero, add_zero]
    rfl
  · have hshift : (max (((2 ^ 53).log2 : ℕ) + t - 52) leastExponent - t).toNat = 1 := by
      rw [Nat.log2_two_pow]
      omega
    have hcanonical : Dyadic.Canonical ⟨negative, hiddenBit, t + 1⟩ :=
      ⟨by simp [hiddenBit], hleast.trans (by simp), .inl le_rfl⟩
    have hmagnitude : Dyadic.magnitude ⟨negative, hiddenBit, t + 1⟩ = (2 ^ 53 : ℕ) * 2 ^ t := by
      rw [Dyadic.magnitude, zpow_add₀ two_ne_zero]
      norm_num [hiddenBit]
      ring
    refine ⟨⟨negative, hiddenBit, t + 1⟩, rfl, ⟨hcanonical, t, 2 ^ 53, h, hmagnitude⟩, ?_⟩
    rw [hshift]
    rfl

/-- Rounding shifts twice, and makes zero of a mantissa of zero. -/
theorem ofUnpacked_roundWithAccuracy_eq_ite (s : Sign) {m : ℕ} {e : ℤ} {accuracy : Accuracy}
    {first second : ExtendedMantissa × ℤ}
    (hfirst : shiftToTargetExponent Format.binary64 m e accuracy = first)
    (hsecond : shiftToTargetExponent Format.binary64 first.1.roundedMantissa first.2 .exact =
      second) :
    ofUnpacked (roundWithAccuracy Format.binary64 s m e accuracy) =
      if second.1.mantissa = 0 then .finite ⟨s == .negative, 0, leastExponent⟩
      else .finite ⟨s == .negative, second.1.mantissa, second.2⟩ := by
  rw [roundWithAccuracy, hfirst]
  dsimp only
  rw [hsecond, apply_dite ofUnpacked]
  rfl

/-- A significand of zero has the least exponent, as zero has. -/
theorem ofUnpacked_roundWithAccuracy {s : Sign} {m : ℕ} {e t : ℤ} {accuracy : Accuracy}
    {em : ExtendedMantissa} {d : Dyadic} (hnegative : d.negative = (s == .negative))
    (hd : d.Canonical)
    (hfirst : shiftToTargetExponent Format.binary64 m e accuracy = (em, t))
    (hsecond : shiftToTargetExponent Format.binary64 em.roundedMantissa t .exact =
      (⟨d.significand, false, false⟩, d.exponent)) :
    ofUnpacked (roundWithAccuracy Format.binary64 s m e accuracy) = .finite d := by
  rw [ofUnpacked_roundWithAccuracy_eq_ite s hfirst hsecond, ← hnegative]
  dsimp only
  split_ifs with hzero
  · have hleast : d.exponent = leastExponent := by
      apply hd.normal.resolve_left
      simp [hzero, hiddenBit]
    rw [← hzero, ← hleast]
  · rfl

@[simp] theorem mantissa_ofMantissaAndAccuracy (m : ℕ) (accuracy : Accuracy) :
    (ExtendedMantissa.ofMantissaAndAccuracy m accuracy).mantissa = m := by
  rcases accuracy with _ | (_ | _ | _) <;> rfl

theorem represents_exact (m : ℕ) :
    Represents (.ofMantissaAndAccuracy m .exact) m :=
  rfl

/-- Rounding gives the nearest number, if the exponent does not have to be lowered for it. -/
theorem Represents.exists_nearestTo (s : Sign) {m : ℕ} {e : ℤ} {accuracy : Accuracy} {x : ℚ}
    (h : Represents (.ofMantissaAndAccuracy m accuracy) x) (hm : 0 < m ∨ e ≤ leastExponent)
    (he : e ≤ max (m.log2 + e - 52) leastExponent) :
    ∃ d, ofUnpacked (roundWithAccuracy Format.binary64 s m e accuracy) = .finite d ∧
      d.negative = (s == .negative) ∧ NearestTo (x * 2 ^ e) d := by
  obtain ⟨t, ht⟩ : ∃ t, t = max (m.log2 + e - 52) leastExponent := ⟨_, rfl⟩
  rw [← ht] at he
  have hfirst : shiftToTargetExponent Format.binary64 m e accuracy =
      (ExtendedMantissa.ofMantissaAndAccuracy m accuracy >>> (t - e).toNat, t) := by
    have hexponent : e + (t - e).toNat = t := by omega
    rw [shiftToTargetExponent, targetExponent_eq, ← ht, shiftToExponent]
    simp only [hexponent]
  have hrounds := h.rounds_shiftRight (e := e) (t := t) (by simpa using hm) (by simpa using ht) he
  obtain ⟨d, hnegative, hnearest, hsecond⟩ :=
    hrounds.exists_shiftToTargetExponent (s == .negative)
  exact ⟨d, ofUnpacked_roundWithAccuracy hnegative hnearest.canonical hfirst hsecond, hnegative,
    hnearest⟩

/-! ## Products -/

theorem mul_eq_pack (x y : Float) :
    x * y = ⟨.pack (UnpackedFloat.mul Format.binary64 x.toModel.unpack y.toModel.unpack)⟩ :=
  rfl

/-- Either a factor has its leading bit, and the product has 53 bits or more, or both factors
    have the least exponent. -/
theorem exponent_add_le {m m' : ℕ} {e e' : ℤ} {b b' : Bool} (h : Dyadic.Canonical ⟨b, m, e⟩)
    (h' : Dyadic.Canonical ⟨b', m', e'⟩) (hm : 0 < m) (hm' : 0 < m') :
    e + e' ≤ max ((m * m').log2 + (e + e') - 52) leastExponent := by
  have hlog (hle : hiddenBit ≤ m * m') : 52 ≤ (m * m').log2 :=
    (Nat.le_log2 (Nat.mul_pos hm hm').ne').2 hle
  rcases h.normal with hbit | hleast
  · have := hlog (hbit.trans (Nat.le_mul_of_pos_right m hm'))
    omega
  rcases h'.normal with hbit' | hleast'
  · have := hlog (hbit'.trans (Nat.le_mul_of_pos_left m' hm))
    omega
  · dsimp only [leastExponent] at hleast hleast' ⊢
    omega

/-- A product is the exact one, rounded. -/
theorem exists_nearestTo_unpacked_mul {x y : Float} {s s' : Sign} {m m' : ℕ} {e e' : ℤ}
    {hm : 0 < m} {hm' : 0 < m'} (hx : x.toModel.unpack = .finite s m e hm)
    (hy : y.toModel.unpack = .finite s' m' e' hm') :
    ∃ d, ofUnpacked (UnpackedFloat.mul Format.binary64 x.toModel.unpack y.toModel.unpack) =
        .finite d ∧ d.negative = (s * s' == .negative) ∧
      NearestTo (m * 2 ^ e * (m' * 2 ^ e')) d := by
  obtain ⟨d, hd, hnegative, hnearest⟩ :=
    (represents_exact (m * m')).exists_nearestTo (s * s') (.inl (Nat.mul_pos hm hm'))
      (exponent_add_le (canonical_of_unpack hx) (canonical_of_unpack hy) hm hm')
  have hproduct : UnpackedFloat.mul Format.binary64 x.toModel.unpack y.toModel.unpack =
      roundWithAccuracy Format.binary64 (s * s') (m * m') (e + e') .exact := by
    rw [hx, hy]
    rfl
  have hvalue : ((m * m' : ℕ) : ℚ) * 2 ^ (e + e') = m * 2 ^ e * (m' * 2 ^ e') := by
    rw [zpow_add₀ two_ne_zero]
    push_cast
    ring
  rw [hvalue] at hnearest
  exact ⟨d, by rw [hproduct, hd], hnegative, hnearest⟩

theorem exists_nearestTo_mul {x y : Float} {s s' : Sign} {m m' : ℕ} {e e' : ℤ} {hm : 0 < m}
    {hm' : 0 < m'} (hx : x.toModel.unpack = .finite s m e hm)
    (hy : y.toModel.unpack = .finite s' m' e' hm') :
    ∃ d, ceilNat (x * y) = ceil (.finite d) ∧ d.negative = (s * s' == .negative) ∧
      NearestTo (m * 2 ^ e * (m' * 2 ^ e')) d := by
  obtain ⟨d, hd, hnegative, hnearest⟩ := exists_nearestTo_unpacked_mul hx hy
  refine ⟨d, ?_, hnegative, hnearest⟩
  rw [mul_eq_pack, ceilNat_pack, hd]
  intro d' hd'
  rw [hd] at hd'
  cases hd'
  exact hnearest.canonical

/-- The greater of two shares of a number, rounded up, is not below the other. -/
theorem ceilNat_mul_le_ceilNat_mul {p q : Float} (hp : 0.0 < p) (hpq : p ≤ q) (hq : q ≤ 1.0)
    (x : Float) : ceilNat (p * x) ≤ ceilNat (q * x) := by
  obtain ⟨m', e', hm', hq⟩ := exists_unpack_of_pos_of_le (pos_of_pos_of_le hp hpq) hq unpack_one
  obtain ⟨m, e, hm, hp⟩ := exists_unpack_of_pos_of_le hp hpq hq
  cases hx : x.toModel.unpack with
  | infinity s | notANumber | zero s =>
    -- the product does not depend on the share
    rw [mul_eq_pack, mul_eq_pack, hp, hq, hx]
    exact le_rfl
  | finite s n f hn =>
    obtain ⟨d, hd, hnegative, hnearest⟩ := exists_nearestTo_mul hp hx
    obtain ⟨d', hd', hnegative', hnearest'⟩ := exists_nearestTo_mul hq hx
    rw [hd, hd']
    cases s with
    | negative =>
      have hceil : d.ceil = 0 := if_pos hnegative
      simp [ceil, hceil]
    | positive =>
      have hexact : (m : ℚ) * 2 ^ e * (n * 2 ^ f) ≤ m' * 2 ^ e' * (n * 2 ^ f) :=
        mul_le_mul_of_nonneg_right ((le_iff_magnitude_le hp hq).1 hpq) (by positivity)
      have hceil := Dyadic.ceil_mono hnegative hnegative' (hnearest.magnitude_le hnearest' hexact)
      exact min_le_min_right greatestWord hceil

end Binary64

end ArchAudit
