-- SUMMARY: In exact arithmetic a score lies between one half and the mean of its measured parts, and only the proportions of the weights count.
import ArchAudit.Proofs.ExactScalars
import ArchAudit.Proofs.StandardAnalysis
import Mathlib.Algebra.Order.BigOperators.Group.List

/-!
# Weighted scores

A score is the mean of all its parts, and the score of the measured parts is the mean of those
alone. An unmeasured part counts as one half, so the score is the measured mean drawn towards
one half: the two never lie on different sides of it.
-/

namespace ArchAudit

-- ---------------------------------------------------------------------------
-- Weights
-- ---------------------------------------------------------------------------

/-- Weights of which none is negative and at least one counts. -/
structure ValidWeights (weights : List Rat) : Prop where
  nonneg : ∀ w ∈ weights, 0 ≤ w
  positive : 0 < weights.sum

namespace Config

theorem nonneg_of_checkWeight {field : String} {w : Rat} (h : checkWeight field w = .ok ()) :
    0 ≤ w := by
  rw [checkWeight, Scalar.zero_rat] at h
  split at h
  · cases h
  · rename_i hpassed
    rw [Bool.or_eq_true, not_or, decide_eq_true_iff] at hpassed
    exact not_lt.1 hpassed.2

/-- Validated weights are valid ones. -/
theorem validWeights_of_validate {config : Config Rat} (h : config.validate = .ok ())
    {group : String × List (String × Rat)} (hgroup : group ∈ config.weightGroups) :
    ValidWeights (group.2.map (·.2)) := by
  have hchecked := (checked_of_validate h).weights group hgroup
  refine ⟨?_, ?_⟩
  · obtain ⟨_, hchecks, -⟩ := exists_of_bind_eq_ok hchecked
    rw [List.forall_mem_map]
    exact fun weight hweight => nonneg_of_checkWeight (ok_of_forM hchecks weight hweight)
  · have hpositive := not_sum_le_of_checkWeights hchecked
    rwa [Scalar.sum_rat, Scalar.zero_rat, not_le] at hpositive

end Config

/-- The weights of the intents, all multiplied by a number. -/
def HealthWeights.scaled (c : Rat) (weights : HealthWeights Rat) : HealthWeights Rat :=
  ⟨c * weights.separationOfConcerns, c * weights.informationHiding,
    c * weights.dependencyInversion⟩

theorem overallHealth_scaled {c : Rat} (hc : 0 < c) (results : List (IntentResult Rat))
    (weights : HealthWeights Rat) :
    overallHealth results (weights.scaled c) = overallHealth results weights := by
  have hscale (x y z : Rat) := weightedMean_scale hc [(weights.separationOfConcerns, x),
    (weights.informationHiding, y), (weights.dependencyInversion, z)]
  simp only [List.map_cons, List.map_nil] at hscale
  simp only [overallHealth, HealthWeights.scaled, hscale]

namespace CombinedScore

-- ---------------------------------------------------------------------------
-- Parts
-- ---------------------------------------------------------------------------

/-- The sum of the weights. -/
def weight (parts : List (Rat × Ratio Rat)) : Rat :=
  (parts.map (·.1)).sum

/-- The sum of the values, each multiplied by its weight. -/
def weightedSum (parts : List (Rat × Ratio Rat)) : Rat :=
  (parts.map fun p => p.1 * p.2.value).sum

def mean (parts : List (Rat × Ratio Rat)) : Rat :=
  weightedSum parts / weight parts

def measuredParts (parts : List (Rat × Ratio Rat)) : List (Rat × Ratio Rat) :=
  parts.filter (!·.2.insufficient)

def unmeasuredParts (parts : List (Rat × Ratio Rat)) : List (Rat × Ratio Rat) :=
  parts.filter (·.2.insufficient)

/-- The weights with the values of the ratios. -/
def values (parts : List (Rat × Ratio Rat)) : List (Rat × Rat) :=
  parts.map fun p => (p.1, p.2.value)

/-- The parts with all weights multiplied by a number. -/
def scaled (c : Rat) (parts : List (Rat × Ratio Rat)) : List (Rat × Ratio Rat) :=
  parts.map fun p => (c * p.1, p.2)

/-- Parts as the intents combine them: valid weights, and ratios between zero and one that are
    one half where nothing was measured. -/
structure Proper (parts : List (Rat × Ratio Rat)) : Prop where
  weights : ValidWeights (parts.map (·.1))
  unit : ∀ p ∈ parts, p.2.value ∈ Set.Icc 0 1
  neutral : ∀ p ∈ parts, p.2.insufficient = true → p.2.value = 1 / 2

variable {parts : List (Rat × Ratio Rat)}

theorem sum_measured_add_sum_unmeasured (f : Rat × Ratio Rat → Rat)
    (parts : List (Rat × Ratio Rat)) :
    ((measuredParts parts).map f).sum + ((unmeasuredParts parts).map f).sum =
      (parts.map f).sum := by
  rw [add_comm, ← List.sum_append, ← List.map_append]
  exact ((List.filter_append_perm (·.2.insufficient) parts).map f).sum_eq

theorem weight_add_weight (parts : List (Rat × Ratio Rat)) :
    weight (measuredParts parts) + weight (unmeasuredParts parts) = weight parts :=
  sum_measured_add_sum_unmeasured _ parts

theorem Proper.weightedSum_unmeasuredParts (h : Proper parts) :
    weightedSum (unmeasuredParts parts) = weight (unmeasuredParts parts) / 2 := by
  have hterms : (unmeasuredParts parts).map (fun p => p.1 * p.2.value) =
      (unmeasuredParts parts).map fun p => 1 / 2 * p.1 := by
    apply List.map_congr_left
    intro p hp
    obtain ⟨hmem, hinsufficient⟩ := List.mem_filter.1 hp
    rw [h.neutral p hmem hinsufficient, mul_comm]
  rw [weightedSum, hterms, List.sum_map_mul_left, weight]
  ring

theorem Proper.weightedSum_eq (h : Proper parts) :
    weightedSum (measuredParts parts) + weight (unmeasuredParts parts) / 2 =
      weightedSum parts := by
  rw [← h.weightedSum_unmeasuredParts]
  exact sum_measured_add_sum_unmeasured _ parts

theorem Proper.weight_nonneg (h : Proper parts) {chosen : List (Rat × Ratio Rat)}
    (hchosen : chosen ⊆ parts) : 0 ≤ weight chosen := by
  apply List.sum_nonneg
  rw [List.forall_mem_map]
  exact fun p hp => h.weights.nonneg _ (List.mem_map_of_mem (hchosen hp))

-- ---------------------------------------------------------------------------
-- Means
-- ---------------------------------------------------------------------------

theorem Proper.weightedSum_mem (h : Proper parts) {chosen : List (Rat × Ratio Rat)}
    (hchosen : chosen ⊆ parts) : weightedSum chosen ∈ Set.Icc 0 (weight chosen) := by
  have hterms : ∀ p ∈ chosen, 0 ≤ p.1 * p.2.value ∧ p.1 * p.2.value ≤ p.1 := by
    intro p hp
    have hweight : 0 ≤ p.1 := h.weights.nonneg _ (List.mem_map_of_mem (hchosen hp))
    obtain ⟨hvalue, hle⟩ := h.unit p (hchosen hp)
    exact ⟨mul_nonneg hweight hvalue, mul_le_of_le_one_right hweight hle⟩
  constructor
  · apply List.sum_nonneg
    rw [List.forall_mem_map]
    exact fun p hp => (hterms p hp).1
  · exact List.sum_le_sum fun p hp => (hterms p hp).2

/-- The mean of values between zero and one is such a value. -/
theorem Proper.mean_mem (h : Proper parts) {chosen : List (Rat × Ratio Rat)}
    (hchosen : chosen ⊆ parts) : mean chosen ∈ Set.Icc 0 1 := by
  obtain ⟨hnonneg, hle⟩ := h.weightedSum_mem hchosen
  exact ⟨div_nonneg hnonneg (h.weight_nonneg hchosen),
    div_le_one_of_le₀ hle (h.weight_nonneg hchosen)⟩

/-- Without any weight there is no weighted sum either. -/
theorem Proper.weight_mul_mean (h : Proper parts) {chosen : List (Rat × Ratio Rat)}
    (hchosen : chosen ⊆ parts) : weight chosen * mean chosen = weightedSum chosen := by
  apply mul_div_cancel_of_imp'
  intro hzero
  have hmem := h.weightedSum_mem hchosen
  rw [hzero, Set.Icc_self] at hmem
  exact hmem

theorem weightedMean_values (parts : List (Rat × Ratio Rat)) :
    weightedMean (values parts) =
      if weight parts ≤ 0 then none else some (Scalar.clampUnit (mean parts)) := by
  rw [weightedMean_rat, values, List.map_map, List.map_map]
  rfl

/-- Means of some of the parts are not clipped. -/
theorem Proper.weightedMean_eq (h : Proper parts) {chosen : List (Rat × Ratio Rat)}
    (hchosen : chosen ⊆ parts) :
    weightedMean (values chosen) =
      if weight chosen = 0 then none else some (mean chosen) := by
  rw [weightedMean_values, Scalar.clampUnit_of_mem (h.mean_mem hchosen)]
  exact if_congr (h.weight_nonneg hchosen).ge_iff_eq' rfl rfl

theorem measuredParts_subset (parts : List (Rat × Ratio Rat)) : measuredParts parts ⊆ parts :=
  List.filter_subset_self parts

theorem ofParts_of_none (h : weightedMean (values parts) = none) :
    ofParts parts = ⟨neutralScore, true, none⟩ := by
  rw [values] at h
  rw [ofParts]
  dsimp only
  rw [h]

theorem ofParts_of_some {score : Rat} (h : weightedMean (values parts) = some score) :
    ofParts parts = ⟨score, (measuredParts parts).length < parts.length,
      weightedMean (values (measuredParts parts))⟩ := by
  rw [values] at h
  rw [ofParts]
  dsimp only
  rw [h]
  rfl

theorem Proper.ofParts_eq (h : Proper parts) :
    ofParts parts =
      ⟨mean parts, (measuredParts parts).length < parts.length,
        if weight (measuredParts parts) = 0 then none else some (mean (measuredParts parts))⟩ := by
  have hall : weightedMean (values parts) = some (mean parts) := by
    rw [h.weightedMean_eq (List.Subset.refl parts)]
    exact if_neg h.weights.positive.ne'
  rw [ofParts_of_some hall, h.weightedMean_eq (measuredParts_subset parts)]

-- ---------------------------------------------------------------------------
-- Scores
-- ---------------------------------------------------------------------------

/-- What a score says of its parts. -/
structure Accounts (s : CombinedScore Rat) (parts : List (Rat × Ratio Rat)) : Prop where
  insufficient_iff : s.insufficient = true ↔ ∃ p ∈ parts, p.2.insufficient = true
  /-- The score is the mean as it is, and so is the measured one. -/
  score_eq_mean : s.score = mean parts
  measured_eq : weight (measuredParts parts) ≠ 0 → s.measured = some (mean (measuredParts parts))
  measured_eq_none_iff : s.measured = none ↔ weight (measuredParts parts) = 0
  score_of_weightless : weight (measuredParts parts) = 0 → s.score = 1 / 2
  mean_mem : weight (measuredParts parts) ≠ 0 → mean (measuredParts parts) ∈ Set.Icc 0 1
  score_eq : weight (measuredParts parts) ≠ 0 → s.score =
    (weight (measuredParts parts) * mean (measuredParts parts) +
        weight (unmeasuredParts parts) / 2) /
      (weight (measuredParts parts) + weight (unmeasuredParts parts))
  score_between : weight (measuredParts parts) ≠ 0 →
    s.score ∈ Set.uIcc (1 / 2) (mean (measuredParts parts))
  score_lt_half_iff : weight (measuredParts parts) ≠ 0 →
    (s.score < 1 / 2 ↔ mean (measuredParts parts) < 1 / 2)

/-- The mean of all parts counts the unmeasured ones as one half. -/
theorem Proper.mean_eq (h : Proper parts) : mean parts =
    (weight (measuredParts parts) * mean (measuredParts parts) +
        weight (unmeasuredParts parts) / 2) /
      (weight (measuredParts parts) + weight (unmeasuredParts parts)) := by
  rw [h.weight_mul_mean (measuredParts_subset parts), h.weightedSum_eq, weight_add_weight, mean]

/-- The mean of all parts lies on the way from one half to the measured mean, as far along as the
    share of the measured weight says. -/
theorem Proper.exists_share (h : Proper parts) : ∃ t : Rat,
    t ∈ Set.Icc 0 1 ∧ (t = 0 ↔ weight (measuredParts parts) = 0) ∧
      mean parts = 1 / 2 + t * (mean (measuredParts parts) - 1 / 2) := by
  have hK : 0 ≤ weight (measuredParts parts) := h.weight_nonneg (measuredParts_subset parts)
  have hU : 0 ≤ weight (unmeasuredParts parts) := h.weight_nonneg (List.filter_subset_self parts)
  have htotal : 0 < weight (measuredParts parts) + weight (unmeasuredParts parts) := by
    rw [weight_add_weight]
    exact h.weights.positive
  refine ⟨weight (measuredParts parts) /
    (weight (measuredParts parts) + weight (unmeasuredParts parts)), ⟨?_, ?_⟩, ?_, ?_⟩
  · exact div_nonneg hK htotal.le
  · exact div_le_one_of_le₀ (le_add_of_nonneg_right hU) htotal.le
  · rw [div_eq_zero_iff, or_iff_left htotal.ne']
  · rw [h.mean_eq]
    field_simp
    ring

/-- A share of the way from one half to a number ends between the two. -/
theorem mem_uIcc_of_share {t m : Rat} (ht : t ∈ Set.Icc 0 1) :
    1 / 2 + t * (m - 1 / 2) ∈ Set.uIcc (1 / 2) m := by
  obtain ⟨hnonneg, hle⟩ := ht
  rcases le_total m (1 / 2) with hm | hm
  · rw [Set.uIcc_of_ge hm]
    constructor <;> nlinarith
  · rw [Set.uIcc_of_le hm]
    constructor <;> nlinarith

theorem Proper.accounts (h : Proper parts) : (ofParts parts).Accounts parts := by
  obtain ⟨t, ht, hzero, hmean⟩ := h.exists_share
  rw [h.ofParts_eq]
  constructor
  case insufficient_iff =>
    rw [decide_eq_true_iff, measuredParts, List.length_filter_lt_length_iff_exists]
    simp
  case score_eq_mean => rfl
  case measured_eq => exact fun hne => if_neg hne
  case measured_eq_none_iff => simp
  case score_of_weightless =>
    intro hweightless
    rw [hmean, hzero.2 hweightless, zero_mul, add_zero]
  case mean_mem => exact fun _ => h.mean_mem (measuredParts_subset parts)
  case score_eq => exact fun _ => h.mean_eq
  case score_between =>
    intro _
    rw [hmean]
    exact mem_uIcc_of_share ht
  case score_lt_half_iff =>
    intro hne
    have hpos : 0 < t := ht.1.lt_of_ne' (mt hzero.1 hne)
    rw [hmean, add_lt_iff_neg_left, Rat.mul_neg_iff_of_pos_left hpos, sub_neg]

/-- The score that decides about advice is the measured one. -/
theorem Proper.measuredScore_toResult (h : Proper parts) (kind : IntentKind)
    (evidence : List Evidence) {metrics : NameMap Rat}
    (hmetrics : metrics.get? IntentResult.measuredMetric = none) :
    ((ofParts parts).toResult kind evidence metrics).measuredScore = (ofParts parts).measured := by
  have haccounts := h.accounts
  rw [IntentResult.measuredScore, toResult]
  dsimp only
  cases hinsufficient : (ofParts parts).insufficient with
  | true =>
    rw [if_pos rfl]
    cases (ofParts parts).measured with
    | none => exact hmetrics
    | some m => exact (metrics.get?_insert _ m _).trans (if_pos rfl)
  | false =>
    have hall : measuredParts parts = parts := by
      rw [measuredParts, List.filter_eq_self]
      intro p hp
      have hnone := mt haccounts.insufficient_iff.2 (by simp [hinsufficient])
      simpa using fun hp' => hnone ⟨p, hp, hp'⟩
    have hweight : weight (measuredParts parts) ≠ 0 := by
      rw [hall]
      exact h.weights.positive.ne'
    rw [haccounts.measured_eq hweight, hall, haccounts.score_eq_mean]
    exact if_neg (by simp)

theorem ofParts_scaled {c : Rat} (hc : 0 < c) (parts : List (Rat × Ratio Rat)) :
    ofParts (scaled c parts) = ofParts parts := by
  have hmean (parts : List (Rat × Ratio Rat)) :
      weightedMean (values (scaled c parts)) = weightedMean (values parts) := by
    rw [← weightedMean_scale hc (values parts), values, scaled, values, List.map_map, List.map_map]
    rfl
  have hknown : measuredParts (scaled c parts) = scaled c (measuredParts parts) :=
    List.filter_map
  have hlength (parts : List (Rat × Ratio Rat)) : (scaled c parts).length = parts.length :=
    List.length_map _
  cases hall : weightedMean (values parts) with
  | none => rw [ofParts_of_none hall, ofParts_of_none ((hmean parts).trans hall)]
  | some score =>
    rw [ofParts_of_some hall, ofParts_of_some ((hmean parts).trans hall), hknown, hmean, hlength,
      hlength]

/-- In exact arithmetic, a score is measured in full or not, and it is the measured mean drawn
    towards one half by the weight of what was not measured. The score that advice is given by is
    the measured mean, and neither depends on the scale of the weights. Validated configurations
    have weights of the kind that this takes. -/
theorem score_drawn_towards_half (h : Proper parts) :
    (ofParts parts).Accounts parts ∧
    (∀ (kind : IntentKind) (evidence : List Evidence) (metrics : NameMap Rat),
      metrics.get? IntentResult.measuredMetric = none →
      ((ofParts parts).toResult kind evidence metrics).measuredScore =
        (ofParts parts).measured) ∧
    (∀ c : Rat, 0 < c → ofParts (scaled c parts) = ofParts parts ∧
      ∀ (results : List (IntentResult Rat)) (weights : HealthWeights Rat),
        overallHealth results (weights.scaled c) = overallHealth results weights) ∧
    (∀ config : Config Rat, config.validate = .ok () →
      ∀ group ∈ config.weightGroups, ValidWeights (group.2.map (·.2))) :=
  ⟨h.accounts, fun kind evidence _ => h.measuredScore_toResult kind evidence,
    fun _ hc => ⟨ofParts_scaled hc parts, overallHealth_scaled hc⟩,
    fun _ hconfig _ => Config.validWeights_of_validate hconfig⟩

/-- One third was measured, at four tenths of the weight. Another part was not measured, and what
    was measured in full carries no weight. -/
def sampleParts : List (Rat × Ratio Rat) :=
  [(2 / 5, .ofCounts 1 3), (3 / 10, .ofCounts 0 0), (0, .ofCounts 1 1)]

theorem proper_sampleParts : Proper sampleParts where
  weights := ⟨by decide +kernel, by decide +kernel⟩
  unit := by decide +kernel
  neutral := by decide +kernel

theorem score_drawn_towards_half_sampleParts :
    Proper sampleParts ∧ (ofParts sampleParts).insufficient = true ∧
      (ofParts sampleParts).measured = some (1 / 3) ∧ (ofParts sampleParts).score = 17 / 42 ∧
      ofParts (scaled 10 sampleParts) = ofParts sampleParts := by
  obtain ⟨haccounts, -, hscaled, -⟩ := score_drawn_towards_half proper_sampleParts
  have hweight : weight (measuredParts sampleParts) ≠ 0 := by decide +kernel
  have hmean : mean (measuredParts sampleParts) = 1 / 3 := by decide +kernel
  refine ⟨proper_sampleParts, haccounts.insufficient_iff.2 (by decide +kernel), ?_, ?_,
    (hscaled 10 (by norm_num)).1⟩
  · rw [haccounts.measured_eq hweight, hmean]
  · rw [haccounts.score_eq hweight]
    decide +kernel

end CombinedScore

end ArchAudit
