-- SUMMARY: Weighted means lie between zero and one as long as the weights have a finite sum.
import ArchAudit.Proofs.Binary64Quotients
import ArchAudit.Proofs.StandardAnalysis

/-!
# Sums of weights

Validation accepts weights that are finite and not negative, whatever they sum up to. A weighted
mean divides by that sum. As long as it is finite, every mean of values between zero and one is
such a value too; once the sum overflows, a mean divides infinity by infinity. Rounding leaves
little room between the two: weights below `greatestFinite` in total never overflow, and weights
of at least the next power of two always do.
-/

namespace ArchAudit

namespace Binary64

open Float.Model (UnpackedFloat Format)

variable {x y : Float}

/-! ## Quotients -/

/-- The number that stands for no value. -/
def undefinedNumber : Float := ⟨.pack .notANumber⟩

theorem div_of_top (hx : 0.0 ≤ x) (hy : 0.0 ≤ y) (hxtop : extent x = ⊤) (hytop : extent y = ⊤) :
    x / y = undefinedNumber := by
  rw [div_eq_pack, unpack_of_extent_eq_top hx hxtop, unpack_of_extent_eq_top hy hytop]
  rfl

theorem le_one_of_not_lt (hx : 0.0 ≤ x) (h : ¬ (1.0 : Float) < x) : x ≤ 1.0 :=
  not_not.1 (mt (not_le_iff_lt hx (by decide)).1 h)

theorem inUnit_iff : Scalar.inUnit x = true ↔ 0.0 ≤ x ∧ x ≤ 1.0 := by
  simp [Scalar.inUnit]

theorem inUnit_clampUnit (hx : 0.0 ≤ x) : Scalar.inUnit (Scalar.clampUnit x) = true := by
  rw [Scalar.clampUnit, Scalar.clamp]
  split_ifs with hlow hhigh
  · exact absurd hlow (not_lt_zero hx)
  · decide
  · exact inUnit_iff.2 ⟨hx, le_one_of_not_lt hx hhigh⟩

theorem isWeight_of_inUnit (h : Scalar.inUnit x = true) : IsWeight x := by
  obtain ⟨hx, hle⟩ := inUnit_iff.1 h
  refine ⟨hx, ?_⟩
  change x.toModel.unpack.isFinite = true
  rw [le_iff_unpack_le, unpack_one] at hle
  rcases unpack_of_nonneg hx with hu | ⟨s, hu⟩ | ⟨m, e, hm, hu⟩ <;> rw [hu] at hle ⊢
  · cases hle
  · rfl
  · rfl

theorem zero_le_of_not_lt (hfinite : x.isFinite = true) (h : ¬ x < 0.0) : 0.0 ≤ x := by
  rw [lt_iff_unpack_lt, unpack_zero] at h
  rw [le_iff_unpack_le, unpack_zero]
  change x.toModel.unpack.isFinite = true at hfinite
  revert hfinite h
  generalize x.toModel.unpack = u
  rcases u with _ | _ | _ | ⟨_ | _⟩ <;> intro hlt hfinite
  case zero | finite.positive => rfl
  case finite.negative => exact absurd rfl hlt
  all_goals cases hfinite

/-! ## Totals -/

/-- The greatest number that is finite. -/
def greatestFinite : ℚ := (2 - 2 ^ (-52 : ℤ)) * 2 ^ (1023 : ℤ)

theorem greatestFinite_add_greatestError : greatestFinite + greatestError = overflow := by
  rw [greatestFinite, overflow, two_zpow_1023, two_zpow_1024]
  norm_num
  ring

theorem zero_le_start : (0.0 : Float) ≤ -0.0 := by
  decide

theorem extent_start : extent (-0.0) = (0 : ℚ) := by
  have hzero : ofFloat (-0.0) = .finite ⟨true, 0, leastExponent⟩ := rfl
  rw [extent_of_finite hzero, magnitude_zero]

/-- The number from which sums start leaves the first one as it is. -/
theorem extent_start_add (hx : IsWeight x) : extent (-0.0 + x) = extent x := by
  have hsum := roundsTo_add zero_le_start hx.1 extent_start hx.extent_eq
  rw [zero_add] at hsum
  exact hsum.eq_extent hx.extent_eq

section Totals

variable {ws ws' : List Float} {w : Float}

theorem zero_le_sum (hws : ∀ v ∈ ws, 0.0 ≤ v) : (0.0 : Float) ≤ Scalar.sum ws :=
  zero_le_foldl_add zero_le_start hws

theorem extent_sum_mono (h : ws.SublistForall₂ (extent · ≤ extent ·) ws')
    (hws : ∀ v ∈ ws, 0.0 ≤ v) (hws' : ∀ v ∈ ws', 0.0 ≤ v) :
    extent (Scalar.sum ws) ≤ extent (Scalar.sum ws') :=
  extent_foldl_mono h zero_le_start zero_le_start le_rfl hws hws'

/-- Of the errors that adding up to two numbers makes, all but the last one count. -/
theorem errors_le (hlength : ws.length ≤ 2) :
    ((ws.length : ℚ) - 1) * greatestError ≤ greatestError := by
  have hcast : (ws.length : ℚ) ≤ 2 := by exact_mod_cast hlength
  exact mul_le_of_le_one_left greatestError_pos.le (by linarith)

theorem extent_sum_ne_top (hws : ∀ v ∈ w :: ws, IsWeight v) (hlength : ws.length ≤ 2)
    (hlt : exactSum (w :: ws) < greatestFinite) : extent (Scalar.sum (w :: ws)) ≠ ⊤ := by
  rw [List.forall_mem_cons] at hws
  have hfirst := (extent_start_add hws.1).trans hws.1.extent_eq
  apply extent_foldl_ne_top (zero_le_add zero_le_start hws.1.1) hfirst hws.2
  rw [exactSum_cons] at hlt
  linarith [greatestFinite_add_greatestError, errors_le hlength]

theorem extent_sum_eq_top (hws : ∀ v ∈ w :: ws, IsWeight v) (hne : ws ≠ [])
    (hlength : ws.length ≤ 2) (hle : 2 ^ (1024 : ℤ) ≤ exactSum (w :: ws)) :
    extent (Scalar.sum (w :: ws)) = ⊤ := by
  rw [List.forall_mem_cons] at hws
  have hfirst := (extent_start_add hws.1).trans hws.1.extent_eq
  apply extent_foldl_eq_top (zero_le_add zero_le_start hws.1.1) hfirst hws.2 hne
  rw [exactSum_cons] at hle
  rw [overflow]
  linarith [errors_le hlength]

end Totals

end Binary64

/-! ## Means -/

open Binary64

/-- Means of values between zero and one are such values too, whichever weights are counted. -/
def MeansInUnit (weights : List Float) : Prop :=
  ∀ parts : List (Float × Float), (parts.map (·.1)).Sublist weights →
    (∀ part ∈ parts, Scalar.inUnit part.2 = true) →
    ∀ mean, weightedMean parts = some mean → Scalar.inUnit mean = true

theorem meansInUnit_of_finite {weights : List Float} (hweights : ∀ w ∈ weights, IsWeight w)
    (hfinite : (Scalar.sum weights).isFinite = true) : MeansInUnit weights := by
  intro parts hsublist hvalues mean hmean
  have hparts : ∀ w ∈ parts.map (·.1), IsWeight w := fun w hw => hweights w (hsublist.subset hw)
  have htotal : IsWeight (Scalar.sum (parts.map (·.1))) := by
    refine ⟨zero_le_sum fun w hw => (hparts w hw).1, ?_⟩
    have hfewer : (parts.map (·.1)).SublistForall₂ (extent · ≤ extent ·) weights :=
      List.sublistForall₂_iff.2 ⟨_, List.forall₂_same.2 fun w _ => le_refl (extent w), hsublist⟩
    have hle := extent_sum_mono hfewer (fun w hw => (hparts w hw).1) fun w hw => (hweights w hw).1
    rw [isFinite_iff_extent] at hfinite ⊢
    exact ne_top_of_le_ne_top hfinite hle
  have hproducts : (0.0 : Float) ≤ Scalar.sum (parts.map fun (w, x) => w * x) := by
    apply zero_le_sum
    rw [List.forall_mem_map]
    intro part hpart
    have hweight : IsWeight part.1 := hparts part.1 (List.mem_map_of_mem hpart)
    have hvalue : IsWeight part.2 := isWeight_of_inUnit (hvalues part hpart)
    exact zero_le_mul hweight hvalue
  rw [weightedMean] at hmean
  dsimp only at hmean
  split_ifs at hmean with hzero
  cases hmean
  exact inUnit_clampUnit (zero_le_div hproducts htotal hzero)

/-- If the sum of the weights is infinite, so is the sum of the products with one. -/
theorem weightedMean_of_infinite {weights : List Float} (hweights : ∀ w ∈ weights, IsWeight w)
    (hinfinite : (Scalar.sum weights).isFinite = false) :
    weightedMean (weights.map (·, 1.0)) = some undefinedNumber := by
  have htop : extent (Scalar.sum weights) = ⊤ := by
    by_contra hne
    rw [(isFinite_iff_extent _).2 hne] at hinfinite
    cases hinfinite
  have hnonneg : (0.0 : Float) ≤ Scalar.sum weights := zero_le_sum fun w hw => (hweights w hw).1
  have hproducts : ∀ v ∈ weights.map (· * 1.0), 0.0 ≤ v := by
    rw [List.forall_mem_map]
    intro w hw
    exact zero_le_mul (hweights w hw) ⟨by decide, by decide⟩
  have hsame : weights.SublistForall₂ (extent · ≤ extent ·) (weights.map (· * 1.0)) := by
    refine List.sublistForall₂_iff.2 ⟨_, ?_, List.Sublist.refl _⟩
    rw [List.forall₂_map_right_iff, List.forall₂_same]
    exact fun w hw => (extent_mul_one (hweights w hw)).ge
  have hproductsTop : extent (Scalar.sum (weights.map (· * 1.0))) = ⊤ := by
    have hle := extent_sum_mono hsame (fun w hw => (hweights w hw).1) hproducts
    rw [htop] at hle
    exact top_le_iff.1 hle
  have hpositive : ¬ Scalar.sum weights ≤ (0.0 : Float) := by
    rw [le_iff_unpack_le, unpack_of_extent_eq_top hnonneg htop]
    decide
  have hquotient := div_of_top (zero_le_sum hproducts) hnonneg hproductsTop htop
  have hclamp : Scalar.clampUnit undefinedNumber = undefinedNumber := by decide
  rw [weightedMean]
  simp only [List.map_map, Function.comp_def, List.map_id']
  rw [if_neg hpositive]
  exact congrArg some ((congrArg Scalar.clampUnit hquotient).trans hclamp)

/-! ## Validated weights -/

namespace Config

variable {config : Config Float} {group : String × List (String × Float)}

theorem isWeight_of_checkWeight {field : String} {w : Float} (h : checkWeight field w = .ok ()) :
    IsWeight w := by
  rw [checkWeight] at h
  split at h
  · cases h
  · rename_i hpassed
    rw [Bool.or_eq_true, not_or] at hpassed
    have hfinite : Scalar.isFinite w = true := by simpa using hpassed.1
    exact ⟨zero_le_of_not_lt hfinite (by simpa using hpassed.2), hfinite⟩

theorem isWeight_of_checkWeights {name : String} {weights : List (String × Float)}
    (h : checkWeights name weights = .ok ()) : ∀ w ∈ weights.map (·.2), IsWeight w := by
  obtain ⟨_, hchecks, -⟩ := exists_of_bind_eq_ok h
  rw [List.forall_mem_map]
  exact fun weight hweight => isWeight_of_checkWeight (ok_of_forM hchecks weight hweight)

/-- A group has two or three weights. -/
theorem exists_cons_of_mem_weightGroups (h : group ∈ config.weightGroups) :
    ∃ w ws, group.2.map (·.2) = w :: ws ∧ ws ≠ [] ∧ ws.length ≤ 2 := by
  simp only [weightGroups, List.mem_cons, List.not_mem_nil, or_false] at h
  rcases h with rfl | rfl | rfl | rfl <;> exact ⟨_, _, rfl, by simp, by simp⟩

/-- Weights of a validated configuration have means, which lie between zero and one for values
    that do if and only if the sum of the weights is finite. -/
theorem means_need_finite_sums (hvalid : config.validate = .ok ())
    (hgroup : group ∈ config.weightGroups) :
    let weights := group.2.map (·.2)
    (∀ parts : List (Float × Float), parts.map (·.1) = weights → (weightedMean parts).isSome) ∧
      ((Scalar.sum weights).isFinite = true → MeansInUnit weights) ∧
      ((Scalar.sum weights).isFinite = false → ∃ mean : Float,
        weightedMean (weights.map (·, 1.0)) = some mean ∧ mean.isNaN = true) ∧
      (exactSum weights < greatestFinite → (Scalar.sum weights).isFinite = true) ∧
      (2 ^ (1024 : ℤ) ≤ exactSum weights → (Scalar.sum weights).isFinite = false) := by
  have hchecked := (checked_of_validate hvalid).weights group hgroup
  have hweights := isWeight_of_checkWeights hchecked
  have hpositive := not_sum_le_of_checkWeights hchecked
  obtain ⟨w, ws, hcons, hne, hlength⟩ := exists_cons_of_mem_weightGroups hgroup
  refine ⟨?_, meansInUnit_of_finite hweights, ?_, ?_, ?_⟩
  · intro parts hparts
    rw [← hparts] at hpositive
    rw [weightedMean]
    dsimp only
    rw [if_neg hpositive]
    rfl
  · intro hinfinite
    exact ⟨_, weightedMean_of_infinite hweights hinfinite, by decide⟩
  · intro hlt
    rw [hcons] at hweights hlt ⊢
    exact (isFinite_iff_extent _).2 (extent_sum_ne_top hweights hlength hlt)
  · intro hle
    rw [hcons] at hweights hle ⊢
    have htop := extent_sum_eq_top hweights hne hlength hle
    exact Bool.eq_false_iff.2 fun hfinite => (isFinite_iff_extent _).1 hfinite htop

/-- The standard configuration, with the same weight for each intent. -/
def withHealthWeight (w : Float) : Config Float :=
  let c := Config.standard Float
  { c with intents := { c.intents with healthWeights := ⟨w, w, w⟩ } }

/-- The weights of the intents in such a configuration. -/
def healthGroup (w : Float) : String × List (String × Float) :=
  ("intents.health",
    [("separation_of_concerns", w), ("information_hiding", w), ("dependency_inversion", w)])

theorem healthGroup_mem (w : Float) : healthGroup w ∈ (withHealthWeight w).weightGroups :=
  .tail _ (.tail _ (.tail _ (.head _)))

theorem means_need_finite_sums_heavy :
    (withHealthWeight 5e307).validate = .ok () ∧
      healthGroup 5e307 ∈ (withHealthWeight 5e307).weightGroups ∧
      MeansInUnit [5e307, 5e307, 5e307] := by
  have hvalid : (withHealthWeight 5e307).validate = .ok () := by decide +kernel
  have hfinite : (Scalar.sum [5e307, 5e307, 5e307] : Float).isFinite = true := by decide +kernel
  exact ⟨hvalid, healthGroup_mem 5e307,
    (means_need_finite_sums hvalid (healthGroup_mem 5e307)).2.1 hfinite⟩

/-- Weights of 1.7 · 10³⁰⁸ are accepted, but their sum is beyond the greatest finite number and
    the health is undefined. -/
theorem accepted_weights_overflow :
    (withHealthWeight 1.7e308).validate = .ok () ∧
      healthGroup 1.7e308 ∈ (withHealthWeight 1.7e308).weightGroups ∧
      greatestFinite < exactSum ((healthGroup 1.7e308).2.map (·.2)) ∧
      (overallHealth [] (withHealthWeight 1.7e308).intents.healthWeights).isNaN = true := by
  have hvalid : (withHealthWeight 1.7e308).validate = .ok () := by decide +kernel
  have hnan : (overallHealth [] (withHealthWeight 1.7e308).intents.healthWeights).isNaN = true := by
    decide +kernel
  have hfloat : ofFloat 1.7e308 = .finite ⟨false, 8517715530038134, 971⟩ := by decide +kernel
  have hvalue : value 1.7e308 = 8517715530038134 * 2 ^ (971 : ℤ) := by
    rw [value, hfloat]
    simp [Dyadic.magnitude]
  refine ⟨hvalid, healthGroup_mem 1.7e308, ?_, hnan⟩
  simp only [healthGroup, List.map_cons, List.map_nil, exactSum_cons, exactSum_nil, hvalue]
  rw [greatestFinite, two_zpow_1023, two_zpow_971]
  norm_num
  linarith [greatestError_pos]

end Config

end ArchAudit
