-- SUMMARY: What the operations of scoring and their weighted means come to in exact arithmetic.
import ArchAudit.Intent.Score
import Mathlib.Algebra.BigOperators.Ring.List
import Mathlib.Data.Rat.Floor
import Mathlib.Tactic.NormNum

/-!
# Exact scalars

Read in rational numbers, a sum from left to right is the sum, rounding up is the ceiling, and
what lies between zero and one is not clipped. A weighted mean is the quotient of two sums: it
depends on the proportions of the weights only, and values that are all equal have their common
value as mean.
-/

namespace ArchAudit

namespace Scalar

theorem zero_rat : (0.0 : Rat) = 0 := by norm_num

theorem one_rat : (1.0 : Rat) = 1 := by norm_num

theorem sum_rat (xs : List Rat) : Scalar.sum xs = xs.sum :=
  List.sum_eq_foldl.symm

theorem ceilNat_rat (x : Rat) : Scalar.ceilNat x = ⌈x⌉₊ := by
  refine eq_of_forall_ge_iff fun n => ?_
  rw [Nat.ceil_le]
  calc x.ceil.toNat ≤ n
    _ ↔ x.ceil ≤ (n : Int) := Int.toNat_le
    _ ↔ x ≤ n := Rat.ceil_le_iff

theorem least_rat (x y : Rat) : least x y = min x y := by
  rw [least, if_pos le_rfl, min_def]

theorem clamp_rat {low high : Rat} (h : low ≤ high) (x : Rat) :
    clamp low high x = max low (min high x) := by
  unfold clamp
  split
  next hlow => rw [max_eq_left ((min_le_right _ _).trans hlow.le)]
  next hlow =>
    split
    next hhigh => rw [min_eq_left hhigh.le, max_eq_right h]
    next hhigh => rw [min_eq_right (not_lt.1 hhigh), max_eq_right (not_lt.1 hlow)]

theorem clampUnit_of_mem {x : Rat} (h : x ∈ Set.Icc 0 1) : clampUnit x = x := by
  rw [clampUnit, zero_rat, one_rat, clamp_rat zero_le_one, min_eq_right h.2, max_eq_right h.1]

end Scalar

section

variable {l : List (Rat × Rat)}

theorem weightedMean_rat (l : List (Rat × Rat)) :
    weightedMean l =
      if (l.map (·.1)).sum ≤ 0 then none
      else some (Scalar.clampUnit ((l.map fun p => p.1 * p.2).sum / (l.map (·.1)).sum)) := by
  simp only [weightedMean, Scalar.sum_rat, Scalar.zero_rat]

/-- Means depend on the proportions of the weights only. -/
theorem weightedMean_scale {c : Rat} (hc : 0 < c) (l : List (Rat × Rat)) :
    weightedMean (l.map fun p => (c * p.1, p.2)) = weightedMean l := by
  have hweights : (l.map fun p => c * p.1).sum = c * (l.map (·.1)).sum :=
    List.sum_map_mul_left l _ c
  have hproducts : (l.map fun p => c * p.1 * p.2).sum = c * (l.map fun p => p.1 * p.2).sum := by
    simp only [mul_assoc]
    exact List.sum_map_mul_left l _ c
  have hsign : c * (l.map (·.1)).sum ≤ 0 ↔ (l.map (·.1)).sum ≤ 0 := by
    rw [← not_lt, ← not_lt, mul_pos_iff_of_pos_left hc]
  simp only [weightedMean_rat, List.map_map, Function.comp_def]
  rw [hweights, hproducts, mul_div_mul_left _ _ hc.ne']
  exact if_congr hsign rfl rfl

/-- The mean of equal values is that value. -/
theorem weightedMean_of_forall_eq {x : Rat} (hx : x ∈ Set.Icc 0 1)
    (hpos : 0 < (l.map (·.1)).sum) (h : ∀ p ∈ l, p.2 = x) : weightedMean l = some x := by
  have hproducts : (l.map fun p => p.1 * p.2).sum = (l.map (·.1)).sum * x := by
    rw [← List.sum_map_mul_right]
    exact congrArg List.sum (List.map_congr_left fun p hp => by rw [h p hp])
  rw [weightedMean_rat, if_neg (not_le.2 hpos), hproducts, mul_div_cancel_left₀ _ hpos.ne',
    Scalar.clampUnit_of_mem hx]

end

end ArchAudit
