-- SUMMARY: Sums of numbers that are not negative are exact up to rounding until they overflow.
import ArchAudit.Proofs.Binary64Products

/-!
# Sums of binary64 numbers

A sum of two numbers that are not negative is the exact sum, rounded. It is infinite from
`overflow` on and off by at most `greatestError` below, so a sum of several numbers stays close
to the exact one until it overflows.
-/

namespace ArchAudit

namespace Binary64

open Float.Model (UnpackedFloat Format)
open Float.Model.UnpackedFloat (roundWithAccuracy decreaseExponent)

/-! ## Errors of rounding -/

theorem Rounds.abs_sub_le {x : ℚ} {t : ℤ} {r : ℕ} (h : Rounds x t r) (hx : 0 ≤ x) :
    |(r : ℚ) * 2 ^ t - x| ≤ 2 ^ t / 2 := by
  have hpos : (0 : ℚ) < 2 ^ t := by positivity
  have hhigh : x / 2 ^ t ≤ r + 1 / 2 := by
    rcases (h.nearest r).1 le_rfl with hlt | ⟨heq, -⟩
    · exact hlt.le
    · exact heq.le
  have hlow : (r : ℚ) - 1 / 2 ≤ x / 2 ^ t := by
    cases r with
    | zero =>
      have : 0 ≤ x / 2 ^ t := by positivity
      push_cast
      linarith
    | succ r =>
      have hnot := mt (h.nearest r).2 (by omega)
      push_cast
      linarith [not_lt.1 (not_or.1 hnot).1]
  rw [div_le_iff₀ hpos] at hhigh
  rw [le_div_iff₀ hpos] at hlow
  rw [abs_le]
  constructor <;> linarith

/-- A number of 53 bits is rounded to itself. -/
theorem rounds_self {d : Dyadic} (h : d.Canonical) :
    Rounds d.magnitude d.exponent d.significand := by
  have hquotient : d.magnitude / 2 ^ d.exponent = d.significand := by
    rw [Dyadic.magnitude, mul_div_assoc, div_self (by positivity), mul_one]
  refine ⟨?_, h.leastExponent_le, ?_, ?_⟩
  · intro n
    rw [hquotient]
    constructor
    · intro hle
      have hcast : (d.significand : ℚ) ≤ n := by exact_mod_cast hle
      exact .inl (by linarith)
    · intro hnear
      have hle : (d.significand : ℚ) ≤ n + 1 / 2 := hnear.elim le_of_lt fun heq => heq.1.le
      have hlt : (d.significand : ℚ) < (n + 1 : ℕ) := by
        push_cast
        linarith
      exact Nat.lt_succ_iff.1 (by exact_mod_cast hlt)
  · rw [add_comm]
    exact h.magnitude_lt
  · apply h.normal.imp_left
    intro hbit
    rw [zpow_add₀ two_ne_zero, ← Dyadic.hiddenBit_eq, Dyadic.magnitude]
    gcongr

theorem nearestTo_self {d : Dyadic} (h : d.Canonical) : NearestTo d.magnitude d :=
  ⟨h, d.exponent, d.significand, rounds_self h, rfl⟩

@[simp] theorem magnitude_zero (negative : Bool) (e : ℤ) :
    Dyadic.magnitude ⟨negative, 0, e⟩ = 0 := by
  simp [Dyadic.magnitude]

theorem nearestTo_zero (negative : Bool) : NearestTo 0 ⟨negative, 0, leastExponent⟩ := by
  have hcanonical : Dyadic.Canonical ⟨negative, 0, leastExponent⟩ :=
    ⟨by simp [hiddenBit], le_rfl, .inr rfl⟩
  simpa using nearestTo_self hcanonical

/-! ## Overflow -/

/-- How far rounding can move a number without overflow. -/
def greatestError : ℚ := 2 ^ (970 : ℤ)

/-- The least number that is rounded to infinity. -/
def overflow : ℚ := 2 ^ (1024 : ℤ) - greatestError

theorem greatestError_pos : 0 < greatestError :=
  zpow_pos two_pos 970

/-- Great powers of two are counted in greatest errors. -/
theorem two_zpow_add (k : ℤ) : (2 : ℚ) ^ (k + 970) = 2 ^ k * greatestError :=
  zpow_add₀ two_ne_zero k 970

theorem two_zpow_971 : (2 : ℚ) ^ (971 : ℤ) = 2 * greatestError :=
  (two_zpow_add 1).trans (by norm_num)

theorem two_zpow_1023 : (2 : ℚ) ^ (1023 : ℤ) = 2 ^ 53 * greatestError :=
  (two_zpow_add 53).trans (by norm_num)

theorem two_zpow_1024 : (2 : ℚ) ^ (1024 : ℤ) = 2 ^ 54 * greatestError :=
  (two_zpow_add 54).trans (by norm_num)

theorem exponent_le_iff_magnitude_lt {d : Dyadic} (h : d.Canonical) :
    d.exponent ≤ 971 ↔ d.magnitude < 2 ^ (1024 : ℤ) := by
  constructor
  · intro hle
    exact h.magnitude_lt.trans_le (zpow_le_zpow_right₀ one_le_two (by omega))
  · intro hlt
    by_contra hgreat
    have hnormal : hiddenBit ≤ d.significand := by
      apply h.normal.resolve_right
      simp only [leastExponent]
      omega
    have hle : (2 : ℚ) ^ (1024 : ℤ) ≤ d.magnitude := by
      calc (2 : ℚ) ^ (1024 : ℤ)
        _ ≤ 2 ^ (52 + d.exponent) := zpow_le_zpow_right₀ one_le_two (by omega)
        _ = hiddenBit * 2 ^ d.exponent := by rw [zpow_add₀ two_ne_zero, Dyadic.hiddenBit_eq]
        _ ≤ d.magnitude := by
          unfold Dyadic.magnitude
          gcongr
    exact absurd hlt (not_lt.2 hle)

/-- The number in the middle between the greatest one and the next power of two has an odd
    neighbour below, so it is rounded up. -/
theorem rounds_overflow : Rounds overflow 971 (2 ^ 53) := by
  have hpos := greatestError_pos
  have hquotient : overflow / 2 ^ (971 : ℤ) = 2 ^ 53 - 1 / 2 := by
    rw [overflow, two_zpow_1024, two_zpow_971, div_eq_iff (by positivity)]
    ring
  refine ⟨?_, by decide, ?_, .inl ?_⟩
  · intro n
    rw [hquotient]
    constructor
    · intro hle
      have : ((2 ^ 53 : ℕ) : ℚ) ≤ n := by exact_mod_cast hle
      push_cast at this
      exact .inl (by linarith)
    · rintro (hlt | ⟨heq, heven⟩)
      · have : ((2 ^ 53 : ℕ) : ℚ) < (n + 1 : ℕ) := by
          push_cast
          linarith
        exact Nat.lt_succ_iff.1 (by exact_mod_cast this)
      · have : ((2 ^ 53 : ℕ) : ℚ) = (n + 1 : ℕ) := by
          push_cast
          linarith
        have : 2 ^ 53 = n + 1 := by exact_mod_cast this
        omega
  · change overflow < 2 ^ (1024 : ℤ)
    rw [overflow]
    linarith
  · change 2 ^ (1023 : ℤ) ≤ overflow
    rw [overflow, two_zpow_1024, two_zpow_1023]
    linarith

namespace NearestTo

variable {x : ℚ} {d : Dyadic}

theorem abs_sub_le (h : NearestTo x d) (hx : 0 ≤ x) (hlt : x < 2 ^ (1024 : ℤ)) :
    |d.magnitude - x| ≤ greatestError := by
  obtain ⟨t, r, hrounds, hmagnitude⟩ := h.rounds
  have ht : t ≤ 971 := by
    rcases hrounds.le with hle | hleast
    · have := (zpow_lt_zpow_iff_right₀ (one_lt_two : (1 : ℚ) < 2)).1 (hle.trans_lt hlt)
      omega
    · simp only [leastExponent] at hleast
      omega
  rw [hmagnitude]
  calc |(r : ℚ) * 2 ^ t - x|
    _ ≤ 2 ^ t / 2 := hrounds.abs_sub_le hx
    _ ≤ 2 ^ (971 : ℤ) / 2 := by
      gcongr
      · exact one_le_two
    _ = greatestError := by
      rw [two_zpow_971]
      ring

theorem exponent_le_iff (h : NearestTo x d) (hx : 0 ≤ x) : d.exponent ≤ 971 ↔ x < overflow := by
  rw [exponent_le_iff_magnitude_lt h.canonical]
  constructor
  · intro hlt
    by_contra hle
    obtain ⟨t, r, hrounds, hmagnitude⟩ := h.rounds
    have hgreat := rounds_overflow.mono hrounds (not_lt.1 hle)
    rw [← hmagnitude, two_zpow_971] at hgreat
    rw [two_zpow_1024] at hlt
    push_cast at hgreat
    linarith
  · intro hlt
    rw [overflow] at hlt
    have herror := (abs_le.1 (h.abs_sub_le hx (by linarith [greatestError_pos]))).2
    linarith

end NearestTo

/-! ## Numbers that are not negative -/

/-- The number is not below zero; it may be infinite. -/
def IsNonneg : Binary64 → Prop
  | .notANumber => False
  | .infinite negative => negative = false
  | .finite d => d.negative = false ∨ d.significand = 0

theorem zero_le_iff (x : Float) : 0.0 ≤ x ↔ (ofFloat x).IsNonneg := by
  rw [le_iff_unpack_le, unpack_zero, ofFloat_eq_ofUnpacked]
  generalize x.toModel.unpack = u
  rcases u with (_ | _) | _ | _ | ⟨_ | _, m, e, hm⟩
  case infinity.positive => exact iff_of_true rfl rfl
  case zero => exact iff_of_true rfl (.inr rfl)
  case finite.positive => exact iff_of_true rfl (.inl rfl)
  all_goals refine iff_of_false Bool.false_ne_true fun hnonneg => ?_
  case finite.negative =>
    rcases hnonneg with hsign | hzero
    · cases hsign
    · exact hm.ne' hzero
  all_goals cases hnonneg

theorem unpack_of_nonneg {x : Float} (hx : 0.0 ≤ x) :
    x.toModel.unpack = .infinity .positive ∨ (∃ s, x.toModel.unpack = .zero s) ∨
      ∃ m e hm, x.toModel.unpack = .finite .positive m e hm := by
  rw [le_iff_unpack_le, unpack_zero] at hx
  revert hx
  generalize x.toModel.unpack = u
  rcases u with (_ | _) | _ | s | ⟨_ | _, m, e, hm⟩ <;> intro hle
  case infinity.positive => exact .inl rfl
  case zero => exact .inr (.inl ⟨s, rfl⟩)
  case finite.positive => exact .inr (.inr ⟨m, e, hm, rfl⟩)
  all_goals cases hle

theorem isNonneg_ofFields {biased : BitVec 11} (h : biased ≠ -1#11) (fraction : BitVec 52) :
    (ofFields .positive biased fraction).IsNonneg := by
  rw [ofFields, if_neg h]
  split
  · exact .inl rfl
  · exact .inl rfl

/-- Packing keeps the sign, and makes no number undefined. -/
theorem zero_le_pack {u : UnpackedFloat} (h : (ofUnpacked u).IsNonneg) :
    0.0 ≤ (⟨.pack u⟩ : Float) := by
  rw [zero_le_iff]
  change (ofBits (UnpackedFloat.pack Format.binary64 u).toNat).IsNonneg
  cases u with
  | notANumber => exact h.elim
  | infinity s =>
    cases s with
    | positive => rfl
    | negative => cases h
  | zero s => cases s <;> exact .inr rfl
  | finite s m e hm =>
    obtain rfl : s = .positive := by
      cases s with
      | positive => rfl
      | negative =>
        rcases h with hsign | hzero
        · cases hsign
        · exact absurd hzero hm.ne'
    delta UnpackedFloat.pack
    dsimp only
    split_ifs with hgreat hnormal
    · rw [UnpackedFloat.packedInfinity, ofBits_packComponents]
      rfl
    · rw [ofBits_packComponents]
      apply isNonneg_ofFields
      intro hones
      have htoNat := congrArg BitVec.toNat hones
      simp only [BitVec.toNat_ofNat] at htoNat
      norm_num [Format.exponentBits] at htoNat hgreat
      omega
    · rw [ofBits_packComponents]
      exact isNonneg_ofFields (by decide) _

theorem isNonneg_roundWithAccuracy (m : ℕ) (e : ℤ) (accuracy : UnpackedFloat.Accuracy) :
    (ofUnpacked (roundWithAccuracy Format.binary64 .positive m e accuracy)).IsNonneg := by
  rw [ofUnpacked_roundWithAccuracy_eq_ite .positive rfl rfl]
  split_ifs
  · exact .inr rfl
  · exact .inl rfl

/-! ## Sums -/

theorem add_eq_pack (x y : Float) :
    x + y = ⟨.pack (UnpackedFloat.add Format.binary64 x.toModel.unpack y.toModel.unpack)⟩ :=
  rfl

/-- Lowering the exponent does not change the number. -/
theorem decreaseExponent_magnitude (m : ℕ) (e t : ℤ) :
    ((decreaseExponent m e t).1 : ℚ) * 2 ^ (decreaseExponent m e t).2 = m * 2 ^ e := by
  simp only [decreaseExponent, Nat.shiftLeft_eq]
  push_cast
  rw [← zpow_natCast, mul_assoc, ← zpow_add₀ two_ne_zero]
  congr 2
  omega

theorem exists_nearestTo_round {m : ℕ} (hm : 0 < m) (e : ℤ) :
    ∃ d, ofUnpacked (UnpackedFloat.round Format.binary64 .positive m e) = .finite d ∧
      d.negative = false ∧ NearestTo (m * 2 ^ e) d := by
  obtain ⟨t, ht⟩ : ∃ t, t = max (m.log2 + e - 52) leastExponent := ⟨_, rfl⟩
  have hpos : 0 < (decreaseExponent m e t).1 := by
    simp only [decreaseExponent, Nat.shiftLeft_eq]
    positivity
  have hexponent : (decreaseExponent m e t).2 ≤
      max ((decreaseExponent m e t).1.log2 + (decreaseExponent m e t).2 - 52) leastExponent := by
    have hlog : m.log2 + (e - t).toNat ≤ (decreaseExponent m e t).1.log2 := by
      rw [Nat.le_log2 hpos.ne', decreaseExponent, Nat.shiftLeft_eq, pow_add]
      exact Nat.mul_le_mul_right _ (Nat.log2_self_le hm.ne')
    simp only [decreaseExponent] at hlog ⊢
    omega
  have hround : UnpackedFloat.round Format.binary64 .positive m e =
      roundWithAccuracy Format.binary64 .positive (decreaseExponent m e t).1
        (decreaseExponent m e t).2 .exact := by
    rw [UnpackedFloat.round, targetExponent_eq, ← ht]
  obtain ⟨d, hd, hnegative, hnearest⟩ :=
    (represents_exact _).exists_nearestTo .positive (.inl hpos) hexponent
  rw [decreaseExponent_magnitude] at hnearest
  exact ⟨d, by rw [hround, hd], hnegative, hnearest⟩

/-- The sum of two positive numbers is the exact one, rounded. -/
theorem exists_nearestTo_add_finite {m m' : ℕ} (e e' : ℤ) (hm : 0 < m) (hm' : 0 < m') :
    ∃ d, ofUnpacked (UnpackedFloat.add Format.binary64 (.finite .positive m e hm)
        (.finite .positive m' e' hm')) = .finite d ∧
      d.negative = false ∧ NearestTo (m * 2 ^ e + m' * 2 ^ e') d := by
  have hexponent (n : ℕ) (f : ℤ) (hf : min e e' ≤ f) :
      (decreaseExponent n f (min e e')).2 = min e e' := by
    simp only [decreaseExponent]
    omega
  -- both mantissas at the smaller exponent
  obtain ⟨n, hn⟩ : ∃ n, (decreaseExponent m e (min e e')).1 = n := ⟨_, rfl⟩
  obtain ⟨n', hn'⟩ : ∃ n', (decreaseExponent m' e' (min e e')).1 = n' := ⟨_, rfl⟩
  have hvalue := decreaseExponent_magnitude m e (min e e')
  have hvalue' := decreaseExponent_magnitude m' e' (min e e')
  rw [hexponent m e (min_le_left e e'), hn] at hvalue
  rw [hexponent m' e' (min_le_right e e'), hn'] at hvalue'
  have hpos : 0 < n + n' := by
    rw [← hn]
    simp only [decreaseExponent, Nat.shiftLeft_eq]
    positivity
  have hadd : UnpackedFloat.add Format.binary64 (.finite .positive m e hm)
      (.finite .positive m' e' hm') =
        UnpackedFloat.round Format.binary64 .positive (n + n') (min e e') := by
    have hnormalize : UnpackedFloat.add Format.binary64 (.finite .positive m e hm)
        (.finite .positive m' e' hm') =
          UnpackedFloat.normalize Format.binary64 ((n : ℤ) + n') (min e e') .positive := by
      rw [← hn, ← hn']
      rfl
    rw [hnormalize, UnpackedFloat.normalize, Int.compare_eq_gt.2 (by omega)]
    rfl
  obtain ⟨d, hd, hnegative, hnearest⟩ := exists_nearestTo_round hpos (min e e')
  refine ⟨d, by rw [hadd, hd], hnegative, ?_⟩
  rw [← hvalue, ← hvalue', ← add_mul, ← Nat.cast_add]
  exact hnearest

/-! ## Extents -/

/-- How great a number is, if it is not negative. -/
def extent (x : Float) : WithTop ℚ :=
  match ofFloat x with
  | .finite d => d.magnitude
  | _ => ⊤

theorem extent_of_finite {x : Float} {d : Dyadic} (h : ofFloat x = .finite d) :
    extent x = d.magnitude := by
  rw [extent, h]

theorem isFinite_iff_extent (x : Float) : x.isFinite = true ↔ extent x ≠ ⊤ := by
  have hfinite : x.isFinite = x.toModel.unpack.isFinite := rfl
  rw [hfinite, extent, ofFloat_eq_ofUnpacked]
  cases x.toModel.unpack with
  | infinity s | notANumber => exact iff_of_false Bool.false_ne_true (not_not.2 rfl)
  | zero s | finite s m e hm => exact iff_of_true rfl WithTop.coe_ne_top

/-- Rounding `x` gives `q`, which is infinite if `x` is too great. -/
def RoundsTo (x : ℚ) (q : WithTop ℚ) : Prop :=
  ∃ d, NearestTo x d ∧ q = if d.exponent ≤ 971 then (d.magnitude : WithTop ℚ) else ⊤

theorem ofFloat_pack {u : UnpackedFloat} {d : Dyadic} (hu : ofUnpacked u = .finite d)
    (hd : d.Canonical) : ofFloat ⟨.pack u⟩ =
      if d.exponent ≤ 971 then .finite d else .infinite d.negative := by
  change ofBits (UnpackedFloat.pack Format.binary64 u).toNat = _
  cases u with
  | notANumber => cases hu
  | infinity s => cases hu
  | zero s =>
    cases hu
    cases s <;> rfl
  | finite s m e hm =>
    cases hu
    rcases le_or_gt e 971 with he | he
    · rw [if_pos he, ofBits_pack hd he]
    · rw [if_neg he.not_ge, ofBits_pack_of_overflow he]

theorem NearestTo.roundsTo {x : ℚ} {d : Dyadic} {u : UnpackedFloat} (h : NearestTo x d)
    (hu : ofUnpacked u = .finite d) : RoundsTo x (extent ⟨.pack u⟩) := by
  refine ⟨d, h, ?_⟩
  rw [extent, ofFloat_pack hu h.canonical]
  split_ifs <;> rfl

namespace RoundsTo

variable {x y : ℚ} {q r : WithTop ℚ}

theorem mono (h : RoundsTo x q) (h' : RoundsTo y r) (hxy : x ≤ y) : q ≤ r := by
  obtain ⟨d, hnearest, rfl⟩ := h
  obtain ⟨d', hnearest', rfl⟩ := h'
  have hle := hnearest.magnitude_le hnearest' hxy
  by_cases he' : d'.exponent ≤ 971
  · have he : d.exponent ≤ 971 := by
      rw [exponent_le_iff_magnitude_lt hnearest'.canonical] at he'
      rw [exponent_le_iff_magnitude_lt hnearest.canonical]
      exact hle.trans_lt he'
    rw [if_pos he, if_pos he']
    exact_mod_cast hle
  · rw [if_neg he']
    exact le_top

theorem eq_top_iff (h : RoundsTo x q) (hx : 0 ≤ x) : q = ⊤ ↔ overflow ≤ x := by
  obtain ⟨d, hnearest, rfl⟩ := h
  have hiff := (hnearest.exponent_le_iff hx).not.trans not_lt
  split_ifs with he
  · exact iff_of_false WithTop.coe_ne_top (mt hiff.2 (not_not.2 he))
  · exact iff_of_true rfl (hiff.1 he)

theorem abs_sub_le {p : ℚ} (h : RoundsTo x p) (hx : 0 ≤ x) : |p - x| ≤ greatestError := by
  have hlt : x < overflow := not_le.1 (mt (h.eq_top_iff hx).2 WithTop.coe_ne_top)
  obtain ⟨d, hnearest, heq⟩ := h
  rw [if_pos ((hnearest.exponent_le_iff hx).2 hlt)] at heq
  obtain rfl : p = d.magnitude := by exact_mod_cast heq
  rw [overflow] at hlt
  exact hnearest.abs_sub_le hx (by linarith [greatestError_pos])

end RoundsTo

/-! ## Extents of sums -/

section Sums

variable {x y : Float} {p q : ℚ}

theorem exists_dyadic_of_extent (h : extent x = p) : ∃ d, ofFloat x = .finite d ∧
    p = d.magnitude := by
  unfold extent at h
  split at h
  · rename_i d hd
    exact ⟨d, hd, by exact_mod_cast h.symm⟩
  · exact absurd h.symm WithTop.coe_ne_top

theorem extent_nonneg (h : extent x = p) : 0 ≤ p := by
  obtain ⟨d, -, rfl⟩ := exists_dyadic_of_extent h
  unfold Dyadic.magnitude
  positivity

theorem exponent_le_of_ofFloat {d : Dyadic} (h : ofFloat x = .finite d) : d.exponent ≤ 971 := by
  unfold ofFloat ofBits at h
  dsimp only at h
  split_ifs at h with _ _ hzeros
  · cases h
    dsimp only [leastExponent]
    omega
  · cases h
    dsimp only
    omega

theorem roundsTo_extent (h : extent x = p) : RoundsTo p p := by
  obtain ⟨d, hd, rfl⟩ := exists_dyadic_of_extent h
  refine ⟨d, nearestTo_self (canonical_of_ofBits hd), ?_⟩
  rw [if_pos (exponent_le_of_ofFloat hd)]

/-- The extent of a number is rounded to itself. -/
theorem RoundsTo.eq_extent {r : WithTop ℚ} (h : RoundsTo p r) (hp : extent x = p) :
    r = extent x := by
  have hself := roundsTo_extent hp
  rw [hp]
  exact le_antisymm (h.mono hself le_rfl) (hself.mono h le_rfl)

theorem zero_le_add (hx : 0.0 ≤ x) (hy : 0.0 ≤ y) : 0.0 ≤ x + y := by
  rw [add_eq_pack]
  apply zero_le_pack
  rcases unpack_of_nonneg hx with hu | ⟨s, hu⟩ | ⟨m, e, hm, hu⟩ <;>
    rcases unpack_of_nonneg hy with hv | ⟨s', hv⟩ | ⟨m', e', hm', hv⟩ <;> rw [hu, hv]
  case inr.inr.inr.inr =>
    obtain ⟨d, hd, hnegative, -⟩ := exists_nearestTo_add_finite e e' hm hm'
    rw [hd]
    exact .inl hnegative
  case inr.inl.inr.inl => cases s <;> cases s' <;> exact .inr rfl
  all_goals first | exact .inl rfl | rfl

theorem exists_nearestTo_add (hx : 0.0 ≤ x) (hy : 0.0 ≤ y) {a b : Dyadic}
    (ha : ofFloat x = .finite a) (hb : ofFloat y = .finite b) :
    ∃ d, ofUnpacked (UnpackedFloat.add Format.binary64 x.toModel.unpack y.toModel.unpack) =
        .finite d ∧ NearestTo (a.magnitude + b.magnitude) d := by
  have hcanonical := canonical_of_ofBits ha
  have hcanonical' := canonical_of_ofBits hb
  rw [ofFloat_eq_ofUnpacked] at ha hb
  rcases unpack_of_nonneg hx with hu | ⟨s, hu⟩ | ⟨m, e, hm, hu⟩ <;> rw [hu] at ha ⊢
  · cases ha
  · cases ha
    rcases unpack_of_nonneg hy with hv | ⟨s', hv⟩ | ⟨m', e', hm', hv⟩ <;> rw [hv] at hb ⊢
    · cases hb
    · cases hb
      rw [magnitude_zero, magnitude_zero, add_zero]
      cases s <;> cases s' <;> exact ⟨_, rfl, nearestTo_zero _⟩
    · cases hb
      refine ⟨_, rfl, ?_⟩
      rw [magnitude_zero, zero_add]
      exact nearestTo_self hcanonical'
  · cases ha
    rcases unpack_of_nonneg hy with hv | ⟨s', hv⟩ | ⟨m', e', hm', hv⟩ <;> rw [hv] at hb ⊢
    · cases hb
    · cases hb
      refine ⟨_, rfl, ?_⟩
      rw [magnitude_zero, add_zero]
      exact nearestTo_self hcanonical
    · cases hb
      obtain ⟨d, hd, -, hnearest⟩ := exists_nearestTo_add_finite e e' hm hm'
      exact ⟨d, hd, hnearest⟩

theorem roundsTo_add (hx : 0.0 ≤ x) (hy : 0.0 ≤ y) (hp : extent x = p) (hq : extent y = q) :
    RoundsTo (p + q) (extent (x + y)) := by
  obtain ⟨a, ha, rfl⟩ := exists_dyadic_of_extent hp
  obtain ⟨b, hb, rfl⟩ := exists_dyadic_of_extent hq
  obtain ⟨d, hd, hnearest⟩ := exists_nearestTo_add hx hy ha hb
  exact hnearest.roundsTo hd

theorem unpack_of_extent_eq_top (hx : 0.0 ≤ x) (h : extent x = ⊤) :
    x.toModel.unpack = .infinity .positive := by
  rw [extent, ofFloat_eq_ofUnpacked] at h
  rcases unpack_of_nonneg hx with hu | ⟨s, hu⟩ | ⟨m, e, hm, hu⟩
  · exact hu
  · rw [hu] at h
    cases h
  · rw [hu] at h
    cases h

theorem extent_add_of_top (hx : 0.0 ≤ x) (hy : 0.0 ≤ y) (h : extent x = ⊤ ∨ extent y = ⊤) :
    extent (x + y) = ⊤ := by
  have hinfinite : UnpackedFloat.add Format.binary64 x.toModel.unpack y.toModel.unpack =
      .infinity .positive := by
    rcases h with h | h
    · rw [unpack_of_extent_eq_top hx h]
      rcases unpack_of_nonneg hy with hv | ⟨s, hv⟩ | ⟨m, e, hm, hv⟩ <;> rw [hv] <;> rfl
    · rw [unpack_of_extent_eq_top hy h]
      rcases unpack_of_nonneg hx with hu | ⟨s, hu⟩ | ⟨m, e, hm, hu⟩ <;> rw [hu] <;> rfl
  rw [add_eq_pack, hinfinite]
  rfl

/-- Sums keep the order. -/
theorem extent_add_le_extent_add {x' y' : Float} (hx : 0.0 ≤ x) (hy : 0.0 ≤ y) (hx' : 0.0 ≤ x')
    (hy' : 0.0 ≤ y') (hxx : extent x ≤ extent x') (hyy : extent y ≤ extent y') :
    extent (x + y) ≤ extent (x' + y') := by
  by_cases htop : extent x' = ⊤ ∨ extent y' = ⊤
  · rw [extent_add_of_top hx' hy' htop]
    exact le_top
  · rw [not_or] at htop
    obtain ⟨p', hp'⟩ := WithTop.ne_top_iff_exists.1 htop.1
    obtain ⟨q', hq'⟩ := WithTop.ne_top_iff_exists.1 htop.2
    obtain ⟨p, hp⟩ := WithTop.ne_top_iff_exists.1 (ne_top_of_le_ne_top htop.1 hxx)
    obtain ⟨q, hq⟩ := WithTop.ne_top_iff_exists.1 (ne_top_of_le_ne_top htop.2 hyy)
    rw [← hp, ← hp', WithTop.coe_le_coe] at hxx
    rw [← hq, ← hq', WithTop.coe_le_coe] at hyy
    exact (roundsTo_add hx hy hp.symm hq.symm).mono (roundsTo_add hx' hy' hp'.symm hq'.symm)
      (add_le_add hxx hyy)

/-- Adding a number does not make a sum smaller. -/
theorem extent_le_extent_add (hx : 0.0 ≤ x) (hy : 0.0 ≤ y) : extent x ≤ extent (x + y) := by
  by_cases htop : extent x = ⊤ ∨ extent y = ⊤
  · rw [extent_add_of_top hx hy htop]
    exact le_top
  · rw [not_or] at htop
    obtain ⟨p, hp⟩ := WithTop.ne_top_iff_exists.1 htop.1
    obtain ⟨q, hq⟩ := WithTop.ne_top_iff_exists.1 htop.2
    have hle : p ≤ p + q := le_add_of_nonneg_right (extent_nonneg hq.symm)
    rw [← hp]
    exact (roundsTo_extent hp.symm).mono (roundsTo_add hx hy hp.symm hq.symm) hle

end Sums

/-! ## Sums of lists -/

section Lists

variable {ws ws' : List Float}

theorem zero_le_foldl_add {a : Float} (ha : 0.0 ≤ a) (hws : ∀ w ∈ ws, 0.0 ≤ w) :
    0.0 ≤ ws.foldl (· + ·) a := by
  induction ws generalizing a with
  | nil => exact ha
  | cons w ws ih =>
    rw [List.forall_mem_cons] at hws
    exact ih (zero_le_add ha hws.1) hws.2

theorem extent_foldl_of_top {a : Float} (ha : 0.0 ≤ a) (htop : extent a = ⊤)
    (hws : ∀ w ∈ ws, 0.0 ≤ w) : extent (ws.foldl (· + ·) a) = ⊤ := by
  induction ws generalizing a with
  | nil => exact htop
  | cons w ws ih =>
    rw [List.forall_mem_cons] at hws
    exact ih (zero_le_add ha hws.1) (extent_add_of_top ha hws.1 (.inl htop)) hws.2

theorem extent_le_extent_foldl {a : Float} (ha : 0.0 ≤ a) (hws : ∀ w ∈ ws, 0.0 ≤ w) :
    extent a ≤ extent (ws.foldl (· + ·) a) := by
  induction ws generalizing a with
  | nil => exact le_rfl
  | cons w ws ih =>
    rw [List.forall_mem_cons] at hws
    exact (extent_le_extent_add ha hws.1).trans (ih (zero_le_add ha hws.1) hws.2)

/-- Fewer and smaller numbers do not have a greater sum. -/
theorem extent_foldl_mono (h : ws.SublistForall₂ (extent · ≤ extent ·) ws') {a a' : Float}
    (ha : 0.0 ≤ a) (ha' : 0.0 ≤ a') (haa : extent a ≤ extent a') (hws : ∀ w ∈ ws, 0.0 ≤ w)
    (hws' : ∀ w ∈ ws', 0.0 ≤ w) :
    extent (ws.foldl (· + ·) a) ≤ extent (ws'.foldl (· + ·) a') := by
  induction h generalizing a a' with
  | nil => exact haa.trans (extent_le_extent_foldl ha' hws')
  | cons hle _ ih =>
    rw [List.forall_mem_cons] at hws hws'
    exact ih (zero_le_add ha hws.1) (zero_le_add ha' hws'.1)
      (extent_add_le_extent_add ha hws.1 ha' hws'.1 haa hle) hws.2 hws'.2
  | cons_right _ ih =>
    rw [List.forall_mem_cons] at hws'
    exact ih ha (zero_le_add ha' hws'.1) (haa.trans (extent_le_extent_add ha' hws'.1)) hws hws'.2

/-- The exact value of a number, if it is finite. -/
def value (x : Float) : ℚ :=
  match ofFloat x with
  | .finite d => if d.negative then -d.magnitude else d.magnitude
  | _ => 0

def exactSum (xs : List Float) : ℚ := (xs.map value).sum

@[simp] theorem exactSum_nil : exactSum [] = 0 := rfl

@[simp] theorem exactSum_cons (x : Float) (xs : List Float) :
    exactSum (x :: xs) = value x + exactSum xs :=
  List.sum_cons

/-- The number is finite and not negative. -/
def IsWeight (x : Float) : Prop :=
  0.0 ≤ x ∧ x.isFinite = true

theorem IsWeight.extent_eq {x : Float} (h : IsWeight x) : extent x = value x := by
  obtain ⟨p, hp⟩ := WithTop.ne_top_iff_exists.1 ((isFinite_iff_extent x).1 h.2)
  obtain ⟨d, hd, rfl⟩ := exists_dyadic_of_extent hp.symm
  have hnonneg := (zero_le_iff x).1 h.1
  rw [hd] at hnonneg
  rw [value, hd, ← hp]
  rcases hnonneg with hpositive | hzero
  · simp [hpositive]
  · have hmagnitude : d.magnitude = 0 := by simp [Dyadic.magnitude, hzero]
    simp [hmagnitude]

theorem IsWeight.value_nonneg {x : Float} (h : IsWeight x) : 0 ≤ value x :=
  extent_nonneg h.extent_eq

theorem exactSum_nonneg (hws : ∀ w ∈ ws, IsWeight w) : 0 ≤ exactSum ws := by
  apply List.sum_nonneg
  rw [List.forall_mem_map]
  exact fun w hw => (hws w hw).value_nonneg

/-- Each number but the first adds an error, and the last one must not overflow. -/
theorem extent_foldl_ne_top {a : Float} {p : ℚ} (ha : 0.0 ≤ a) (hp : extent a = p)
    (hws : ∀ w ∈ ws, IsWeight w)
    (hlt : p + exactSum ws + (ws.length - 1) * greatestError < overflow) :
    extent (ws.foldl (· + ·) a) ≠ ⊤ := by
  induction ws generalizing a p with
  | nil =>
    rw [List.foldl_nil, hp]
    exact WithTop.coe_ne_top
  | cons w ws ih =>
    rw [List.forall_mem_cons] at hws
    have hrounds := roundsTo_add ha hws.1.1 hp hws.1.extent_eq
    have hsum : 0 ≤ p + value w := add_nonneg (extent_nonneg hp) hws.1.value_nonneg
    have hlater := exactSum_nonneg hws.2
    have herrors : 0 ≤ (ws.length : ℚ) * greatestError :=
      mul_nonneg (Nat.cast_nonneg _) greatestError_pos.le
    rw [exactSum_cons, List.length_cons] at hlt
    push_cast at hlt
    have hbelow : ¬ overflow ≤ p + value w := by linarith
    obtain ⟨p', hp'⟩ := WithTop.ne_top_iff_exists.1 (mt (hrounds.eq_top_iff hsum).1 hbelow)
    rw [← hp'] at hrounds
    have herror := (abs_le.1 (hrounds.abs_sub_le hsum)).2
    exact ih (zero_le_add ha hws.1.1) hp'.symm hws.2 (by linarith)

theorem extent_foldl_eq_top {a : Float} {p : ℚ} (ha : 0.0 ≤ a) (hp : extent a = p)
    (hws : ∀ w ∈ ws, IsWeight w) (hne : ws ≠ [])
    (hle : overflow + (ws.length - 1) * greatestError ≤ p + exactSum ws) :
    extent (ws.foldl (· + ·) a) = ⊤ := by
  induction ws generalizing a p with
  | nil => exact absurd rfl hne
  | cons w ws ih =>
    rw [List.forall_mem_cons] at hws
    have hrounds := roundsTo_add ha hws.1.1 hp hws.1.extent_eq
    have hsum : 0 ≤ p + value w := add_nonneg (extent_nonneg hp) hws.1.value_nonneg
    rw [exactSum_cons, List.length_cons] at hle
    push_cast at hle
    by_cases htop : extent (a + w) = ⊤
    · rw [List.foldl_cons]
      exact extent_foldl_of_top (zero_le_add ha hws.1.1) htop fun w hw => (hws.2 w hw).1
    · have hbelow := mt (hrounds.eq_top_iff hsum).2 htop
      obtain ⟨p', hp'⟩ := WithTop.ne_top_iff_exists.1 htop
      rw [← hp'] at hrounds
      have herror := (abs_le.1 (hrounds.abs_sub_le hsum)).1
      have hmore : ws ≠ [] := by
        rintro rfl
        simp only [List.length_nil, Nat.cast_zero, exactSum_nil] at hle
        exact hbelow (by linarith)
      exact ih (zero_le_add ha hws.1.1) hp'.symm hws.2 hmore (by linarith)

end Lists

end Binary64

end ArchAudit
