-- SUMMARY: A percentile is one of the values, and splits them as its share says.
import ArchAudit.AntiPattern.Detect
import ArchAudit.Graph.Build
import ArchAudit.Proofs.ExactScalars
import Mathlib.Data.List.GetD
import Mathlib.Data.List.Sort

/-!
# Percentiles

The percentile of some values is read off their ascending order at a rank. The rank is kept
between one and the number of values, whatever the share is, so there is always a value to read.
If the rank is the exact share of the number of values, rounded up, then at least that share of
the values does not exceed the percentile, and less than that share lies below it.
-/

namespace ArchAudit

section Ranks

variable {α : Type} [Scalar α] {values values' : List Nat}

/-- The rank at which a percentile is read off, counted from one. -/
def clampedRank (p : α) (n : Nat) : Nat :=
  Nat.min (Nat.max (Scalar.ceilNat (p * (n : α))) 1) n

theorem clampedRank_mem (p : α) {n : Nat} (hn : 0 < n) : clampedRank p n ∈ Set.Icc 1 n :=
  ⟨le_min (le_max_right _ _) hn, min_le_right _ _⟩

theorem clampedRank_mono {p q : α} {n : Nat}
    (h : Scalar.ceilNat (p * (n : α)) ≤ Scalar.ceilNat (q * (n : α))) :
    clampedRank p n ≤ clampedRank q n :=
  min_le_min_right _ (max_le_max_right _ h)

/-- The rank is a place in the ascending order. -/
theorem clampedRank_sub_one_lt (hne : values ≠ []) (p : α) :
    clampedRank p values.length - 1 < values.mergeSort.length := by
  have hmem := clampedRank_mem p (List.length_pos_iff.2 hne)
  rw [List.length_mergeSort]
  have := hmem.1
  have := hmem.2
  omega

theorem nearestRank_eq_getElem (hne : values ≠ []) (p : α) :
    nearestRank values p =
      values.mergeSort.get ⟨clampedRank p values.length - 1, clampedRank_sub_one_lt hne p⟩ :=
  List.getD_eq_getElem _ _ (clampedRank_sub_one_lt hne p)

theorem nearestRank_mem (hne : values ≠ []) (p : α) : nearestRank values p ∈ values := by
  rw [nearestRank_eq_getElem hne p]
  exact (List.mergeSort_perm values _).mem_iff.1 (List.get_mem _ _)

/-- A percentile grows with the rank that its share amounts to. -/
theorem nearestRank_mono {p q : α}
    (h : Scalar.ceilNat (p * (values.length : α)) ≤ Scalar.ceilNat (q * (values.length : α))) :
    nearestRank values p ≤ nearestRank values q := by
  rcases eq_or_ne values [] with rfl | hne
  · simp [nearestRank]
  · rw [nearestRank_eq_getElem hne p, nearestRank_eq_getElem hne q]
    apply List.sortedLE_mergeSort.getElem_le_getElem_of_le
    exact Nat.sub_le_sub_right (clampedRank_mono h) 1

theorem nearestRank_perm (h : values.Perm values') (p : α) :
    nearestRank values p = nearestRank values' p := by
  have hsorted : values.mergeSort = values'.mergeSort := by
    apply List.Perm.eq_of_sortedLE List.sortedLE_mergeSort List.sortedLE_mergeSort
    exact (List.mergeSort_perm values _).trans (h.trans (List.mergeSort_perm values' _).symm)
  rw [nearestRank, nearestRank, hsorted, h.length_eq]

end Ranks

-- ---------------------------------------------------------------------------
-- Counting
-- ---------------------------------------------------------------------------

section Counting

variable {l : List Nat} {i : Nat}

/-- The values up to a place of an ascending list do not exceed the one at the place. -/
theorem lt_countP_le_getElem (h : l.SortedLE) (hi : i < l.length) : i < l.countP (· ≤ l[i]) := by
  have hfirst : (l.take (i + 1)).countP (· ≤ l[i]) = (l.take (i + 1)).length := by
    rw [List.countP_eq_length]
    intro x hx
    obtain ⟨j, hj, rfl⟩ := List.mem_take_iff_getElem.1 hx
    exact decide_eq_true (h.getElem_le_getElem_of_le (by omega))
  calc i < (l.take (i + 1)).length := by rw [List.length_take]; omega
    _ = (l.take (i + 1)).countP (· ≤ l[i]) := hfirst.symm
    _ ≤ l.countP (· ≤ l[i]) := (List.take_sublist _ _).countP_le

/-- The values from a place on are not below the one at the place. -/
theorem countP_lt_getElem_le (h : l.SortedLE) (hi : i < l.length) : l.countP (· < l[i]) ≤ i := by
  have hlast : (l.drop i).countP (· < l[i]) = 0 := by
    rw [List.countP_eq_zero]
    intro x hx
    obtain ⟨j, hj, rfl⟩ := List.mem_drop_iff_getElem.1 hx
    have hle : l[i] ≤ l[i + j] := h.getElem_le_getElem_of_le (Nat.le_add_right i j)
    simpa using hle
  calc l.countP (· < l[i])
    _ = (l.take i ++ l.drop i).countP (· < l[i]) := by rw [List.take_append_drop]
    _ = (l.take i).countP (· < l[i]) := by rw [List.countP_append, hlast, Nat.add_zero]
    _ ≤ (l.take i).length := List.countP_le_length
    _ ≤ i := List.length_take_le _ _

theorem countP_gt_eq (l : List Nat) (r : Nat) :
    l.countP (r < ·) = l.length - l.countP (· ≤ r) := by
  have hsplit := List.length_eq_countP_add_countP (· ≤ r) (l := l)
  simp only [decide_eq_true_iff, not_le] at hsplit
  omega

variable {α : Type} [Scalar α] {values : List Nat}

theorem clampedRank_le_countP (hne : values ≠ []) (p : α) :
    clampedRank p values.length ≤ values.countP (· ≤ nearestRank values p) := by
  have hcount := lt_countP_le_getElem List.sortedLE_mergeSort (clampedRank_sub_one_lt hne p)
  rw [nearestRank_eq_getElem hne p, ← (List.mergeSort_perm values _).countP_eq]
  exact Nat.le_of_pred_lt hcount

theorem countP_lt_clampedRank (hne : values ≠ []) (p : α) :
    values.countP (· < nearestRank values p) < clampedRank p values.length := by
  have hcount := countP_lt_getElem_le List.sortedLE_mergeSort (clampedRank_sub_one_lt hne p)
  have hrank := (clampedRank_mem p (List.length_pos_iff.2 hne)).1
  rw [nearestRank_eq_getElem hne p, ← (List.mergeSort_perm values _).countP_eq]
  exact Nat.lt_of_le_pred hrank hcount

end Counting

-- ---------------------------------------------------------------------------
-- Exact shares
-- ---------------------------------------------------------------------------

/-- The share `p` of `n` things, rounded up, is what the number `q` makes of it exactly. -/
def ExactShare {α : Type} [Scalar α] (p : α) (q : Rat) (n : Nat) : Prop :=
  Scalar.ceilNat (p * (n : α)) = ⌈q * n⌉₊

theorem exactShare_rat (p : Rat) (n : Nat) : ExactShare p p n :=
  Scalar.ceilNat_rat _

/-- One of the values: at least the share `q` of them does not exceed it, and less than that
    share lies below it. -/
structure IsPercentile (values : List Nat) (q : Rat) (r : Nat) : Prop where
  mem : r ∈ values
  share_le : q * values.length ≤ values.countP (· ≤ r)
  lt_share : (values.countP (· < r) : Rat) < q * values.length

section Shares

variable {α : Type} [Scalar α] {values : List Nat} {p : α} {q : Rat}

theorem ExactShare.clampedRank_eq {n : Nat} (h : ExactShare p q n) (hq : q ∈ Set.Ioc 0 1)
    (hn : 0 < n) : clampedRank p n = ⌈q * n⌉₊ := by
  have hpos : 0 < ⌈q * n⌉₊ := Nat.ceil_pos.2 (mul_pos hq.1 (Nat.cast_pos.2 hn))
  have hle : ⌈q * n⌉₊ ≤ n := Nat.ceil_le.2 (mul_le_of_le_one_left n.cast_nonneg hq.2)
  rw [clampedRank, h]
  exact (min_eq_left (max_le hle hn)).trans (max_eq_left hpos)

theorem isPercentile_nearestRank (hne : values ≠ []) (hq : q ∈ Set.Ioc 0 1)
    (h : ExactShare p q values.length) : IsPercentile values q (nearestRank values p) := by
  have hrank := h.clampedRank_eq hq (List.length_pos_iff.2 hne)
  refine ⟨nearestRank_mem hne p, ?_, ?_⟩
  · exact Nat.ceil_le.1 (hrank ▸ clampedRank_le_countP hne p)
  · exact Nat.lt_ceil.1 (hrank ▸ countP_lt_clampedRank hne p)

end Shares

namespace AntiPattern

variable {α : Type} [Scalar α] {config : AntiPatternConfig α} {g : Graph α}

/-- Below the cap, a component is flagged only if it exceeds the percentile. -/
theorem length_tightCoupling_le_countP
    (hcap : ∀ c ∈ g.components, c.metrics.totalCoupling ≤ config.couplingCap) :
    (tightCoupling config g).length ≤
      (g.components.map (·.metrics.totalCoupling)).countP (couplingReference config g < ·) := by
  rw [tightCoupling, List.length_mapIdx, ← List.countP_eq_length_filter, List.countP_map]
  refine List.countP_mono_left fun c hc hflagged => ?_
  have hle := hcap c hc
  simp only [isTightlyCoupled, Bool.or_eq_true, Bool.and_eq_true, decide_eq_true_iff] at hflagged
  simp only [Function.comp_apply, decide_eq_true_iff]
  omega

theorem length_tightCoupling_le {q : Rat} (hq : q ∈ Set.Ioc 0 1)
    (h : ExactShare config.couplingPercentile q g.size)
    (hcap : ∀ c ∈ g.components, c.metrics.totalCoupling ≤ config.couplingCap) :
    (tightCoupling config g).length ≤ g.size - ⌈q * g.size⌉₊ := by
  have hflagged := length_tightCoupling_le_countP hcap
  rcases eq_or_ne g.components [] with hnil | hne
  · rw [hnil, List.map_nil, List.countP_nil] at hflagged
    exact hflagged.trans (Nat.zero_le _)
  · have hlength : (g.components.map (·.metrics.totalCoupling)).length = g.size :=
      List.length_map _
    have hshare :=
      (isPercentile_nearestRank (mt List.map_eq_nil_iff.1 hne) hq (hlength ▸ h)).share_le
    rw [countP_gt_eq, hlength] at hflagged
    rw [hlength] at hshare
    exact hflagged.trans (Nat.sub_le_sub_left (Nat.ceil_le.2 hshare) _)

end AntiPattern

/-- Whatever the share is, the percentile is read off at a place of the ascending order and does
    not depend on how the values stand. If the share of their number is exact, it splits them as
    its share says, and no more components are flagged than lie above it, unless the cap flags
    some. In exact arithmetic every share is exact. -/
theorem nearestRank_splits_values {α : Type} [Scalar α] {values : List Nat} (hne : values ≠ [])
    (p : α) :
    (values.mergeSort[clampedRank p values.length - 1]? = some (nearestRank values p) ∧
      nearestRank values p ∈ values ∧
      ∀ values', values.Perm values' → nearestRank values' p = nearestRank values p) ∧
    (∀ q ∈ Set.Ioc (0 : Rat) 1, ExactShare p q values.length →
      IsPercentile values q (nearestRank values p)) ∧
    (∀ (config : AntiPatternConfig α) (g : Graph α), ∀ q ∈ Set.Ioc (0 : Rat) 1,
      ExactShare config.couplingPercentile q g.size →
      (∀ c ∈ g.components, c.metrics.totalCoupling ≤ config.couplingCap) →
      (AntiPattern.tightCoupling config g).length ≤ g.size - ⌈q * g.size⌉₊) ∧
    ∀ (q : Rat) (n : Nat), ExactShare q q n := by
  refine ⟨⟨?_, nearestRank_mem hne p, fun values' h => nearestRank_perm h.symm p⟩,
    fun q hq => isPercentile_nearestRank hne hq,
    fun config g q hq => AntiPattern.length_tightCoupling_le hq, exactShare_rat⟩
  rw [nearestRank_eq_getElem hne p]
  exact List.getElem?_eq_getElem (clampedRank_sub_one_lt hne p)

/-- Ten values, some of them equal. -/
def tiedValues : List Nat := [7, 1, 4, 4, 2, 9, 4, 3, 8, 5]

theorem exactShare_tiedValues : ExactShare (0.9 : Float) (9 / 10) tiedValues.length := by
  have hfloat : Scalar.ceilNat ((0.9 : Float) * ((tiedValues.length : Nat) : Float)) = 9 := by
    decide +kernel
  have hexact : ⌈(9 / 10 : Rat) * (tiedValues.length : Nat)⌉₊ = 9 := by
    norm_num [tiedValues]
  exact hfloat.trans hexact.symm

/-- Two clients of one component. -/
def starGraph : Graph Rat :=
  (GraphBuild.ofSorted
    [⟨"client", "client", "client", 1, .empty, .empty, [⟨"hub", .imports, []⟩], false, false⟩,
     ⟨"driver", "driver", "driver", 1, .empty, .empty, [⟨"hub", .imports, []⟩], false, false⟩,
     ⟨"hub", "hub", "hub", 1, .empty, .empty, [], false, false⟩]).graph

def twoThirds : AntiPatternConfig Rat :=
  ⟨2 / 3, 1, 2, ⟨100, 10, 10⟩⟩

/-- Nine tenths of ten tied values, a share that is not a number, and two thirds of a star. -/
theorem nearestRank_splits_values_tiedValues :
    IsPercentile tiedValues (9 / 10) (nearestRank tiedValues (0.9 : Float)) ∧
    nearestRank tiedValues (0.0 / 0.0 : Float) ∈ tiedValues ∧
    (AntiPattern.tightCoupling twoThirds starGraph).length ≤ 1 := by
  have hne : tiedValues ≠ [] := List.cons_ne_nil _ _
  have hnine := nearestRank_splits_values hne (0.9 : Float)
  have hnan := nearestRank_splits_values hne (0.0 / 0.0 : Float)
  obtain ⟨-, -, hstar, hexact⟩ := nearestRank_splits_values hne (2 / 3 : Rat)
  refine ⟨hnine.2.1 (9 / 10) (by norm_num) exactShare_tiedValues, hnan.1.2.1, ?_⟩
  have hsize : starGraph.size = 3 := by decide +kernel
  have hcap : ∀ c ∈ starGraph.components, c.metrics.totalCoupling ≤ twoThirds.couplingCap := by
    decide +kernel
  have hflagged := hstar twoThirds starGraph (2 / 3) (by norm_num) (hexact _ _) hcap
  have hceil : ⌈(2 / 3 : Rat) * (3 : Nat)⌉₊ = 2 := by norm_num
  rwa [hsize, hceil] at hflagged

end ArchAudit
