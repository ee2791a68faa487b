-- SUMMARY: Quotients are rounded exactly, so a share of a count tells whether it is one half.
import ArchAudit.Proofs.Binary64Sums

/-!
# Quotients of binary64 numbers

A quotient of two positive numbers is the exact quotient, rounded. Counts below `2^53` are exact,
and a share of such a count that is less than one half is not rounded up to it.
-/

namespace ArchAudit

namespace Binary64

open Float.Model (UnpackedFloat Format totalExponent)
open Float.Model.UnpackedFloat (accuracyOfFraction divCore roundWithAccuracy)

variable {x y : Float}

/-! ## Products of weights -/

theorem unpack_of_isWeight (hx : IsWeight x) : (∃ s, x.toModel.unpack = .zero s) ∨
    ∃ m e hm, x.toModel.unpack = .finite .positive m e hm := by
  apply (unpack_of_nonneg hx.1).resolve_left
  intro hu
  have hfinite : x.toModel.unpack.isFinite = true := hx.2
  rw [hu] at hfinite
  cases hfinite

theorem zero_le_mul (hx : IsWeight x) (hy : IsWeight y) : 0.0 ≤ x * y := by
  rw [mul_eq_pack]
  apply zero_le_pack
  rcases unpack_of_isWeight hx with ⟨s, hu⟩ | ⟨m, e, hm, hu⟩ <;>
    rcases unpack_of_isWeight hy with ⟨s', hv⟩ | ⟨m', e', hm', hv⟩ <;> rw [hu, hv]
  · exact .inr rfl
  · exact .inr rfl
  · exact .inr rfl
  · exact isNonneg_roundWithAccuracy _ _ _

/-- A number times one is the same number. -/
theorem extent_mul_one (hx : IsWeight x) : extent (x * 1.0) = extent x := by
  obtain ⟨d, hd, hvalue⟩ := exists_dyadic_of_extent hx.extent_eq
  have hproduct : RoundsTo (value x) (extent (x * 1.0)) := by
    rw [ofFloat_eq_ofUnpacked] at hd
    rw [mul_eq_pack, hvalue]
    rcases unpack_of_isWeight hx with ⟨s, hu⟩ | ⟨m, e, hm, hu⟩
    · rw [hu] at hd ⊢
      cases hd
      rw [magnitude_zero]
      exact (nearestTo_zero _).roundsTo rfl
    · obtain ⟨d', hd', -, hnearest⟩ := exists_nearestTo_unpacked_mul hu unpack_one
      have hone : (hiddenBit : ℚ) * 2 ^ (-52 : ℤ) = 1 := by norm_num [hiddenBit]
      rw [hone, mul_one] at hnearest
      rw [hu] at hd
      cases hd
      exact hnearest.roundsTo hd'
  exact hproduct.eq_extent hx.extent_eq

/-! ## Quotients -/

theorem div_eq_pack (x y : Float) :
    x / y = ⟨.pack (UnpackedFloat.div Format.binary64 x.toModel.unpack y.toModel.unpack)⟩ :=
  rfl

theorem zero_le_div (hx : 0.0 ≤ x) (hy : IsWeight y) (hpos : ¬ y ≤ 0.0) : 0.0 ≤ x / y := by
  rw [div_eq_pack]
  apply zero_le_pack
  rcases unpack_of_isWeight hy with ⟨s, hv⟩ | ⟨m, e, hm, hv⟩
  · rw [le_iff_unpack_le, hv] at hpos
    exact absurd rfl hpos
  · rcases unpack_of_nonneg hx with hu | ⟨s', hu⟩ | ⟨m', e', hm', hu⟩ <;> rw [hu, hv]
    · rfl
    · exact .inr rfl
    · exact isNonneg_roundWithAccuracy _ _ _

/-- The remainder tells where between two numbers a quotient lies. -/
theorem represents_quotient (a : ℕ) {b : ℕ} (hb : 0 < b) :
    Represents (.ofMantissaAndAccuracy (a / b) (accuracyOfFraction (a % b) b)) (a / b : ℚ) := by
  have hpos : (0 : ℚ) < b := Nat.cast_pos.2 hb
  have hsplit : (a : ℚ) = b * (a / b : ℕ) + (a % b : ℕ) := by
    exact_mod_cast (Nat.div_add_mod a b).symm
  have hquotient : (a : ℚ) / b = (a / b : ℕ) + (a % b : ℕ) / (b : ℚ) := by
    rw [div_eq_iff hpos.ne', add_mul, div_mul_cancel₀ _ hpos.ne', mul_comm]
    exact hsplit
  have hlt : ((a % b : ℕ) : ℚ) / b < 1 := (div_lt_one hpos).2 (Nat.cast_lt.2 (a.mod_lt hb))
  rw [hquotient, accuracyOfFraction]
  split_ifs with hzero
  · rw [hzero, Nat.cast_zero, zero_div, add_zero]
    exact represents_exact _
  · have hrest : (0 : ℚ) < (a % b : ℕ) / (b : ℚ) :=
      div_pos (Nat.cast_pos.2 (Nat.pos_of_ne_zero hzero)) hpos
    rcases lt_trichotomy (2 * (a % b)) b with hhalf | hhalf | hhalf
    · have hless : ((a % b : ℕ) : ℚ) / b < 1 / 2 := by
        rw [div_lt_div_iff₀ hpos two_pos]
        exact_mod_cast (by omega : a % b * 2 < 1 * b)
      rw [Nat.compare_eq_lt.2 hhalf]
      exact ⟨lt_add_of_pos_right _ hrest, add_lt_add_right hless _⟩
    · have hequal : ((a % b : ℕ) : ℚ) / b = 1 / 2 := by
        rw [div_eq_div_iff hpos.ne' two_ne_zero]
        exact_mod_cast (by omega : a % b * 2 = 1 * b)
      rw [Nat.compare_eq_eq.2 hhalf, hequal]
      rfl
    · have hmore : 1 / 2 < ((a % b : ℕ) : ℚ) / b := by
        rw [div_lt_div_iff₀ two_pos hpos]
        exact_mod_cast (by omega : 1 * b < a % b * 2)
      rw [Nat.compare_eq_gt.2 hhalf]
      exact ⟨add_lt_add_right hmore _, add_lt_add_right hlt _⟩

/-- The dividend is shifted until the quotient has 53 bits, unless its exponent becomes the
    least before. -/
theorem exists_divCore_eq (m m' : ℕ) (e e' : ℤ) : ∃ (k : ℕ) (t : ℤ), t + k = e - e' ∧
    (m'.log2 + 53 ≤ m.log2 + k ∨ t ≤ leastExponent) ∧
    divCore Format.binary64 m e m' e' =
      (m * 2 ^ k / m', t, accuracyOfFraction (m * 2 ^ k % m') m') := by
  obtain ⟨t, ht⟩ : ∃ t, t = min (e - e') (Format.binary64.targetExponent
    (totalExponent m e - totalExponent m' e')) := ⟨_, rfl⟩
  have htarget : Format.binary64.targetExponent (totalExponent m e - totalExponent m' e') =
      max (m.log2 + e - (m'.log2 + e') - 53) leastExponent := by
    rw [targetExponent_binary64, totalExponent, totalExponent]
    omega
  rw [htarget] at ht
  refine ⟨(e - e' - t).toNat, t, by omega, by omega, ?_⟩
  rw [divCore, htarget, ← ht, Nat.shiftLeft_eq]

theorem hiddenBit_le_quotient {m m' k : ℕ} (hm : 0 < m) (hm' : 0 < m')
    (hbits : m'.log2 + 53 ≤ m.log2 + k) : hiddenBit ≤ m * 2 ^ k / m' := by
  rw [Nat.le_div_iff_mul_le hm']
  calc hiddenBit * m'
    _ ≤ 2 ^ 52 * 2 ^ (m'.log2 + 1) := Nat.mul_le_mul_left _ Nat.lt_log2_self.le
    _ = 2 ^ (m'.log2 + 53) := by rw [← pow_add, add_comm, add_assoc]
    _ ≤ 2 ^ (m.log2 + k) := Nat.pow_le_pow_right two_pos hbits
    _ = 2 ^ m.log2 * 2 ^ k := pow_add _ _ _
    _ ≤ m * 2 ^ k := Nat.mul_le_mul_right _ (Nat.log2_self_le hm.ne')

/-- The quotient of two positive numbers is the exact one, rounded. -/
theorem exists_nearestTo_div_finite {m m' : ℕ} (e e' : ℤ) (hm : 0 < m) (hm' : 0 < m') :
    ∃ d, ofUnpacked (UnpackedFloat.div Format.binary64 (.finite .positive m e hm)
        (.finite .positive m' e' hm')) = .finite d ∧
      d.negative = false ∧ NearestTo (m * 2 ^ e / (m' * 2 ^ e')) d := by
  obtain ⟨k, t, hexponent, hbits, hcore⟩ := exists_divCore_eq m m' e e'
  have hquotient : hiddenBit ≤ m * 2 ^ k / m' ∨ t ≤ leastExponent :=
    hbits.imp_left (hiddenBit_le_quotient hm hm')
  have hbitPos : 0 < hiddenBit := by decide
  have hpos : 0 < m * 2 ^ k / m' ∨ t ≤ leastExponent := hquotient.imp_left hbitPos.trans_le
  have hle : t ≤ max ((m * 2 ^ k / m').log2 + t - 52) leastExponent := by
    rcases hquotient with hbit | hleast
    · have hlog : 52 ≤ (m * 2 ^ k / m').log2 :=
        (Nat.le_log2 (hbitPos.trans_le hbit).ne').2 hbit
      omega
    · exact hleast.trans (le_max_right _ _)
  obtain ⟨d, hd, hnegative, hnearest⟩ :=
    (represents_quotient (m * 2 ^ k) hm').exists_nearestTo .positive hpos hle
  have hdiv : UnpackedFloat.div Format.binary64 (.finite .positive m e hm)
      (.finite .positive m' e' hm') =
        roundWithAccuracy Format.binary64 .positive (m * 2 ^ k / m') t
          (accuracyOfFraction (m * 2 ^ k % m') m') := by
    have hround : UnpackedFloat.div Format.binary64 (.finite .positive m e hm)
        (.finite .positive m' e' hm') =
          roundWithAccuracy Format.binary64 .positive (divCore Format.binary64 m e m' e').1
            (divCore Format.binary64 m e m' e').2.1 (divCore Format.binary64 m e m' e').2.2 := rfl
    rw [hround, hcore]
  have hvalue : ((m * 2 ^ k : ℕ) : ℚ) / m' * 2 ^ t = m * 2 ^ e / (m' * 2 ^ e') := by
    have hpower : (2 : ℚ) ^ k * 2 ^ t = 2 ^ e / 2 ^ e' := by
      rw [← zpow_natCast, ← zpow_add₀ two_ne_zero, ← zpow_sub₀ two_ne_zero, add_comm, hexponent]
    push_cast
    rw [mul_div_mul_comm, ← hpower]
    ring
  rw [hvalue] at hnearest
  exact ⟨d, by rw [hdiv, hd], hnegative, hnearest⟩

/-- The extent of a quotient is the exact one, rounded. -/
theorem roundsTo_div {p q : ℚ} (hx : 0.0 ≤ x) (hy : 0.0 ≤ y) (hp : extent x = p)
    (hq : extent y = q) (hpos : 0 < q) : RoundsTo (p / q) (extent (x / y)) := by
  obtain ⟨a, ha, rfl⟩ := exists_dyadic_of_extent hp
  obtain ⟨b, hb, rfl⟩ := exists_dyadic_of_extent hq
  rw [ofFloat_eq_ofUnpacked] at ha hb
  rw [div_eq_pack]
  rcases unpack_of_nonneg hy with hv | ⟨s', hv⟩ | ⟨m', e', hm', hv⟩ <;> rw [hv] at hb ⊢ <;> cases hb
  · rw [magnitude_zero] at hpos
    exact absurd hpos (lt_irrefl 0)
  · rcases unpack_of_nonneg hx with hu | ⟨s, hu⟩ | ⟨m, e, hm, hu⟩ <;> rw [hu] at ha ⊢ <;> cases ha
    · rw [magnitude_zero, zero_div]
      exact (nearestTo_zero _).roundsTo rfl
    · obtain ⟨d, hd, -, hnearest⟩ := exists_nearestTo_div_finite e e' hm hm'
      exact hnearest.roundsTo hd

/-! ## Order -/

theorem extent_of_unpack_finite {m : ℕ} {e : ℤ} {hm : 0 < m}
    (h : x.toModel.unpack = .finite .positive m e hm) :
    extent x = Dyadic.magnitude ⟨false, m, e⟩ := by
  apply extent_of_finite
  rw [ofFloat_eq_ofUnpacked, h]
  rfl

theorem extent_of_unpack_zero {s : UnpackedFloat.Sign} (h : x.toModel.unpack = .zero s) :
    extent x = 0 := by
  have hfloat : ofFloat x = .finite ⟨s == .negative, 0, leastExponent⟩ := by
    rw [ofFloat_eq_ofUnpacked, h]
    rfl
  rw [extent_of_finite hfloat, magnitude_zero]
  rfl

theorem extent_of_unpack_infinity {s : UnpackedFloat.Sign} (h : x.toModel.unpack = .infinity s) :
    extent x = ⊤ := by
  rw [extent, ofFloat_eq_ofUnpacked, h]
  rfl

/-- Positive numbers are compared by their extents. -/
theorem le_iff_extent_le {m : ℕ} {e : ℤ} {hm : 0 < m}
    (hx : x.toModel.unpack = .finite .positive m e hm) (hy : 0.0 ≤ y) :
    x ≤ y ↔ extent x ≤ extent y := by
  have hextent := extent_of_unpack_finite hx
  rcases unpack_of_nonneg hy with hv | ⟨s, hv⟩ | ⟨m', e', hm', hv⟩
  · rw [extent_of_unpack_infinity hv, le_iff_unpack_le, hx, hv]
    exact iff_of_true rfl le_top
  · have hpos : 0 < Dyadic.magnitude ⟨false, m, e⟩ := by
      have : (0 : ℚ) < m := Nat.cast_pos.2 hm
      unfold Dyadic.magnitude
      positivity
    rw [extent_of_unpack_zero hv, hextent, le_iff_unpack_le, hx, hv]
    refine iff_of_false Bool.false_ne_true (not_le.2 ?_)
    exact_mod_cast hpos
  · rw [hextent, extent_of_unpack_finite hv, WithTop.coe_le_coe]
    exact le_iff_magnitude_le hx hv

theorem zero_le_extent (x : Float) : 0 ≤ extent x := by
  cases h : extent x with
  | top => exact le_top
  | coe p => exact_mod_cast extent_nonneg h

/-- Numbers that are not negative are compared by their extents. -/
theorem le_iff_extent_le_of_nonneg (hx : 0.0 ≤ x) (hy : 0.0 ≤ y) :
    x ≤ y ↔ extent x ≤ extent y := by
  rcases unpack_of_nonneg hx with hu | ⟨s, hu⟩ | ⟨m, e, hm, hu⟩
  · rw [extent_of_unpack_infinity hu, top_le_iff, le_iff_unpack_le, hu]
    constructor
    · intro hle
      rcases unpack_of_nonneg hy with hv | ⟨s', hv⟩ | ⟨m', e', hm', hv⟩
      · exact extent_of_unpack_infinity hv
      · rw [hv] at hle
        cases hle
      · rw [hv] at hle
        cases hle
    · intro htop
      rw [unpack_of_extent_eq_top hy htop]
      rfl
  · rw [extent_of_unpack_zero hu, le_iff_unpack_le, hu]
    refine iff_of_true ?_ (zero_le_extent y)
    rcases unpack_of_nonneg hy with hv | ⟨s', hv⟩ | ⟨m', e', hm', hv⟩ <;> rw [hv] <;> rfl
  · exact le_iff_extent_le hu hy

/-- Of two numbers that are not negative, one is at most the other or is greater. -/
theorem not_le_iff_lt (hx : 0.0 ≤ x) (hy : 0.0 ≤ y) : ¬ x ≤ y ↔ y < x := by
  rw [lt_iff_unpack_lt, le_iff_unpack_le]
  rcases unpack_of_nonneg hx with hu | ⟨s, hu⟩ | ⟨m, e, hm, hu⟩ <;>
    rcases unpack_of_nonneg hy with hv | ⟨s', hv⟩ | ⟨m', e', hm', hv⟩ <;>
    rw [hu, hv]
  case inr.inr.inr.inr =>
    change ¬ ((compare e e').then (compare m m')).isLE = true ↔
      (some ((compare e' e).then (compare m' m)) == some .lt) = true
    simp only [beq_iff_eq, Option.some.injEq, Ordering.isLE_then_iff_or, Ordering.then_eq_lt,
      Int.compare_eq_lt, Int.compare_eq_eq, Nat.isLE_compare, Nat.compare_eq_lt]
    omega
  -- infinity is greater than all else, and zero less than all else
  case inl.inr.inl | inl.inr.inr | inr.inr.inr.inl => exact iff_of_true Bool.false_ne_true rfl
  all_goals exact iff_of_false (not_not.2 rfl) Bool.false_ne_true

theorem lt_iff_extent_lt (hx : 0.0 ≤ x) (hy : 0.0 ≤ y) : x < y ↔ extent x < extent y := by
  rw [← not_le_iff_lt hy hx, le_iff_extent_le_of_nonneg hy hx, not_le]

/-! ## Counts -/

/-- A count written with its leading bit set. -/
def dyadicOfNat (n : ℕ) : Dyadic :=
  ⟨false, n * 2 ^ (52 - n.log2), n.log2 - 52⟩

section Counts

variable {n : ℕ}

theorem canonical_dyadicOfNat (hn : 0 < n) (h : n < 2 ^ 53) : (dyadicOfNat n).Canonical := by
  have hlog : n.log2 ≤ 52 := Nat.le_of_lt_succ ((Nat.log2_lt hn.ne').2 h)
  have hpower : 2 ^ n.log2 * 2 ^ (52 - n.log2) = 2 ^ 52 := by
    rw [← pow_add, Nat.add_sub_cancel' hlog]
  refine ⟨?_, ?_, .inl ?_⟩
  · calc n * 2 ^ (52 - n.log2)
      _ < 2 ^ (n.log2 + 1) * 2 ^ (52 - n.log2) :=
        Nat.mul_lt_mul_of_pos_right Nat.lt_log2_self (by positivity)
      _ = 2 * hiddenBit := by rw [pow_succ, mul_right_comm, hpower, mul_comm]; rfl
  · simp only [dyadicOfNat, leastExponent]
    omega
  · calc hiddenBit
      _ = 2 ^ n.log2 * 2 ^ (52 - n.log2) := hpower.symm
      _ ≤ n * 2 ^ (52 - n.log2) := Nat.mul_le_mul_right _ (Nat.log2_self_le hn.ne')

theorem magnitude_dyadicOfNat (hn : 0 < n) (h : n < 2 ^ 53) : (dyadicOfNat n).magnitude = n := by
  have hlog : n.log2 ≤ 52 := Nat.le_of_lt_succ ((Nat.log2_lt hn.ne').2 h)
  have hexponent : ((52 - n.log2 : ℕ) : ℤ) + (n.log2 - 52 : ℤ) = 0 := by omega
  simp only [dyadicOfNat, Dyadic.magnitude]
  push_cast
  rw [mul_assoc, ← zpow_natCast, ← zpow_add₀ two_ne_zero, hexponent, zpow_zero, mul_one]

theorem roundsTo_nat (hn : 0 < n) (h : n < 2 ^ 53) : RoundsTo n (n : ℚ) := by
  have hnearest := nearestTo_self (canonical_dyadicOfNat hn h)
  have hexponent : (dyadicOfNat n).exponent ≤ 971 := by
    have hlog : n.log2 ≤ 52 := Nat.le_of_lt_succ ((Nat.log2_lt hn.ne').2 h)
    simp only [dyadicOfNat]
    omega
  rw [magnitude_dyadicOfNat hn h] at hnearest
  refine ⟨dyadicOfNat n, hnearest, ?_⟩
  rw [if_pos hexponent, magnitude_dyadicOfNat hn h]

/-- A word is read as the count that it holds. -/
theorem isWeight_toFloat (hn : 0 < n) (h : n < 2 ^ 53) :
    IsWeight n.toUInt64.toFloat ∧ extent n.toUInt64.toFloat = (n : ℚ) := by
  have hword : n.toUInt64.toNat = n := Nat.mod_eq_of_lt (h.trans (by decide))
  have hround : n.toUInt64.toFloat =
      ⟨.pack (UnpackedFloat.round Format.binary64 .positive n 0)⟩ := by
    have hnormalize : n.toUInt64.toFloat =
        ⟨.pack (UnpackedFloat.normalize Format.binary64 (n.toUInt64.toNat : ℤ) 0 .positive)⟩ :=
      rfl
    rw [hnormalize, hword, UnpackedFloat.normalize, Int.compare_eq_gt.2 (by omega)]
    rfl
  obtain ⟨d, hd, hnegative, hnearest⟩ := exists_nearestTo_round hn 0
  rw [zpow_zero, mul_one] at hnearest
  have hextent : extent n.toUInt64.toFloat = (n : ℚ) := by
    have hrounds := hnearest.roundsTo hd
    rw [hround]
    exact le_antisymm (hrounds.mono (roundsTo_nat hn h) le_rfl)
      ((roundsTo_nat hn h).mono hrounds le_rfl)
  refine ⟨⟨?_, ?_⟩, hextent⟩
  · rw [hround]
    apply zero_le_pack
    rw [hd]
    exact .inl hnegative
  · rw [isFinite_iff_extent, hextent]
    exact WithTop.coe_ne_top

theorem ofNat_eq_mul_one (h : n < 2 ^ 53) : Float.ofNat n = n.toUInt64.toFloat * 1.0 := by
  have hscientific : Float.ofNat n = Float.ofScientific n false 0 := rfl
  rw [hscientific, Float.ofScientific, dif_pos ⟨h, Nat.zero_le 22⟩]
  rfl

theorem isWeight_ofNat (h : n < 2 ^ 53) : IsWeight (Float.ofNat n) := by
  rcases Nat.eq_zero_or_pos n with rfl | hn
  · exact ⟨by decide +kernel, by decide +kernel⟩
  · obtain ⟨hweight, hextent⟩ := isWeight_toFloat hn h
    rw [ofNat_eq_mul_one h]
    refine ⟨zero_le_mul hweight ⟨by decide +kernel, by decide +kernel⟩, ?_⟩
    rw [isFinite_iff_extent, extent_mul_one hweight, hextent]
    exact WithTop.coe_ne_top

/-- Counts below `2^53` are exact. -/
theorem extent_ofNat (h : n < 2 ^ 53) : extent (Float.ofNat n) = (n : ℚ) := by
  rcases Nat.eq_zero_or_pos n with rfl | hn
  · exact extent_of_unpack_zero (s := .positive) rfl
  · obtain ⟨hweight, hextent⟩ := isWeight_toFloat hn h
    rw [ofNat_eq_mul_one h, extent_mul_one hweight, hextent]

theorem exists_unpack_ofNat (hn : 0 < n) (h : n < 2 ^ 53) :
    ∃ m e hm, (Float.ofNat n).toModel.unpack = .finite .positive m e hm := by
  apply (unpack_of_isWeight (isWeight_ofNat h)).resolve_left
  rintro ⟨s, hzero⟩
  have hextent := (extent_ofNat h).symm.trans (extent_of_unpack_zero hzero)
  have hcast : (n : ℚ) = 0 := by exact_mod_cast hextent
  exact hn.ne' (by exact_mod_cast hcast)

theorem not_ofNat_le_zero (hn : 0 < n) (h : n < 2 ^ 53) : ¬ Float.ofNat n ≤ 0.0 := by
  obtain ⟨m, e, hm, hunpack⟩ := exists_unpack_ofNat hn h
  rw [le_iff_extent_le hunpack (by decide +kernel), extent_ofNat h,
    extent_of_unpack_zero unpack_zero, not_le]
  exact_mod_cast hn

end Counts

/-! ## Halves -/

theorem unpack_half :
    (0.5 : Float).toModel.unpack = .finite .positive hiddenBit (-53) (by decide) :=
  rfl

theorem extent_half : extent 0.5 = (1 / 2 : ℚ) := by
  rw [extent_of_unpack_finite unpack_half]
  norm_num [Dyadic.magnitude, hiddenBit]

/-- The greatest number below one half is its own rounding. -/
theorem roundsTo_below_half :
    RoundsTo (1 / 2 - 1 / 2 ^ 54) ((1 / 2 - 1 / 2 ^ 54 : ℚ) : WithTop ℚ) := by
  have hcanonical : Dyadic.Canonical ⟨false, 2 * hiddenBit - 1, -54⟩ :=
    ⟨by decide, by decide, .inl (by decide)⟩
  have hmagnitude : Dyadic.magnitude ⟨false, 2 * hiddenBit - 1, -54⟩ = 1 / 2 - 1 / 2 ^ 54 := by
    norm_num [Dyadic.magnitude, hiddenBit]
  have hnearest := nearestTo_self hcanonical
  rw [hmagnitude] at hnearest
  refine ⟨_, hnearest, ?_⟩
  rw [if_pos (by decide), hmagnitude]

/-- Rounding does not hide on which side of one half a share of a count lies. -/
theorem half_le_div_iff {p t : ℕ} (ht : 0 < t) (h : t < 2 ^ 53) (hp : p ≤ t) :
    0.5 ≤ Float.ofNat p / Float.ofNat t ↔ t ≤ 2 * p := by
  have hcast : (0 : ℚ) < t := Nat.cast_pos.2 ht
  have hp' : p < 2 ^ 53 := hp.trans_lt h
  have hnonneg : 0.0 ≤ Float.ofNat p / Float.ofNat t :=
    zero_le_div (isWeight_ofNat hp').1 (isWeight_ofNat h) (not_ofNat_le_zero ht h)
  have hrounds := roundsTo_div (isWeight_ofNat hp').1 (isWeight_ofNat h).1 (extent_ofNat hp')
    (extent_ofNat h) hcast
  rw [le_iff_extent_le unpack_half hnonneg, extent_half]
  constructor
  · intro hle
    by_contra hlt
    -- the quotient is at least half of `1 / t` away from one half
    have hbelow : (p : ℚ) / t ≤ 1 / 2 - 1 / 2 ^ 54 := by
      have htwice : 2 * (p : ℚ) + 1 ≤ t := by exact_mod_cast not_le.1 hlt
      have hbound : (t : ℚ) < 2 ^ 53 := by exact_mod_cast h
      rw [div_le_iff₀ hcast]
      linarith
    have hhalf := hle.trans (hrounds.mono roundsTo_below_half hbelow)
    rw [WithTop.coe_le_coe] at hhalf
    norm_num at hhalf
  · intro hle
    apply (roundsTo_extent extent_half).mono hrounds
    rw [div_le_div_iff₀ two_pos hcast]
    exact_mod_cast (by omega : 1 * t ≤ p * 2)

end Binary64

end ArchAudit
