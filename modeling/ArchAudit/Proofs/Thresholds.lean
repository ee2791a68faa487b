-- SUMMARY: Raising the thresholds for coupling and size flags no further component.
import ArchAudit.Graph.Build
import ArchAudit.Proofs.Binary64Products
import ArchAudit.Proofs.Findings
import ArchAudit.Proofs.Percentiles

/-!
# Thresholds

A component is flagged for its coupling if it exceeds a percentile of the coupling of all
components, or a cap, and for its size if it exceeds three limits at once. Whoever raises any
of these thresholds loses findings and gains none: the percentile itself grows with the share
of components that it has to cover.
-/

namespace ArchAudit

namespace AntiPattern

/-! ## Findings -/

/-- Some finding of the kind names the component. -/
def Flagged {α : Type} (findings : List (Violation α)) (kind : ViolationKind) (id : ComponentId) :
    Prop :=
  ∃ v ∈ findings, v.kind = kind ∧ id ∈ v.participants

section

variable {α : Type} [Scalar α] {config : AntiPatternConfig α} {g : Graph α}
  {styles : List (StyleResult α)} {classification : Classification} {id : ComponentId}

theorem flagged_detect_iff {kind : ViolationKind} :
    Flagged (detect config g styles classification) kind id ↔
      ∃ b ∈ blocks config g styles classification, b.1 = kind ∧
        ∃ v ∈ b.2, id ∈ v.participants := by
  rw [Flagged, detect_eq_blocks]
  simp only [List.mem_flatMap]
  constructor
  · rintro ⟨v, ⟨b, hb, hv⟩, rfl, hid⟩
    exact ⟨b, hb, (kind_of_mem_block hb hv).symm, v, hv, hid⟩
  · rintro ⟨b, hb, rfl, v, hv, hid⟩
    exact ⟨v, ⟨b, hb, hv⟩, kind_of_mem_block hb hv, hid⟩

theorem map_participants_tightCoupling : (tightCoupling config g).map (·.participants) =
    (g.components.filter (isTightlyCoupled config (couplingReference config g))).map ([·.id]) := by
  apply map_mapIdx_eq_map
  intro i c
  rfl

theorem map_participants_godComponents : (godComponents config g).map (·.participants) =
    (g.components.filter (isGodComponent config.godComponent)).map ([·.id]) := by
  apply map_mapIdx_eq_map
  intro i c
  rfl

theorem flagged_tightCoupling_iff :
    Flagged (detect config g styles classification) .tightCoupling id ↔
      ∃ c ∈ g.components, isTightlyCoupled config (couplingReference config g) c ∧ id = c.id := by
  have hblock : Flagged (detect config g styles classification) .tightCoupling id ↔
      ∃ participants ∈ (tightCoupling config g).map (·.participants), id ∈ participants := by
    simp [flagged_detect_iff, blocks]
  rw [hblock, map_participants_tightCoupling]
  simp [and_assoc]

theorem flagged_godComponent_iff :
    Flagged (detect config g styles classification) .godComponent id ↔
      ∃ c ∈ g.components, isGodComponent config.godComponent c ∧ id = c.id := by
  have hblock : Flagged (detect config g styles classification) .godComponent id ↔
      ∃ participants ∈ (godComponents config g).map (·.participants), id ∈ participants := by
    simp [flagged_detect_iff, blocks]
  rw [hblock, map_participants_godComponents]
  simp [and_assoc]

end

/-! ## Raising thresholds -/

/-- Every threshold of `c'` is at least the one of `c`, and the percentiles of both are shares
    of the components. -/
structure Raised (c c' : AntiPatternConfig Float) : Prop where
  percentile_pos : 0.0 < c.couplingPercentile
  percentile_le : c.couplingPercentile ≤ c'.couplingPercentile
  percentile_le_one : c'.couplingPercentile ≤ 1.0
  floor_le : c.couplingFloor ≤ c'.couplingFloor
  cap_le : c.couplingCap ≤ c'.couplingCap
  loc_le : c.godComponent.loc ≤ c'.godComponent.loc
  efferent_le : c.godComponent.efferent ≤ c'.godComponent.efferent
  exportedSymbols_le : c.godComponent.exportedSymbols ≤ c'.godComponent.exportedSymbols

variable {c c' : AntiPatternConfig Float}

theorem Raised.couplingReference_le (h : Raised c c') (g : Graph Float) :
    couplingReference c g ≤ couplingReference c' g :=
  nearestRank_mono (Binary64.ceilNat_mul_le_ceilNat_mul h.percentile_pos h.percentile_le
    h.percentile_le_one _)

theorem Raised.isTightlyCoupled (h : Raised c c') {reference reference' : Nat}
    (hreference : reference ≤ reference') {component : Component Float}
    (htight : isTightlyCoupled c' reference' component) :
    isTightlyCoupled c reference component := by
  have hfloor := h.floor_le
  have hcap := h.cap_le
  simp only [AntiPattern.isTightlyCoupled, Bool.or_eq_true, Bool.and_eq_true, decide_eq_true_iff]
    at htight ⊢
  omega

theorem Raised.isGodComponent (h : Raised c c') {component : Component Float}
    (hgod : isGodComponent c'.godComponent component) :
    isGodComponent c.godComponent component := by
  have hloc := h.loc_le
  have hefferent := h.efferent_le
  have hsymbols := h.exportedSymbols_le
  simp only [AntiPattern.isGodComponent, Bool.and_eq_true, decide_eq_true_iff] at hgod ⊢
  omega

/-- Whatever is flagged under higher thresholds, for its coupling or for its size, is flagged
    under lower ones. -/
theorem flagged_of_raised (h : Raised c c') (g : Graph Float) (styles : List (StyleResult Float))
    (classification : Classification) :
    (∀ id, Flagged (detect c' g styles classification) .tightCoupling id →
      Flagged (detect c g styles classification) .tightCoupling id) ∧
    (∀ id, Flagged (detect c' g styles classification) .godComponent id →
      Flagged (detect c g styles classification) .godComponent id) := by
  simp only [flagged_tightCoupling_iff, flagged_godComponent_iff]
  constructor
  · rintro id ⟨component, hcomponent, htight, hid⟩
    exact ⟨component, hcomponent, h.isTightlyCoupled (h.couplingReference_le g) htight, hid⟩
  · rintro id ⟨component, hcomponent, hgod, hid⟩
    exact ⟨component, hcomponent, h.isGodComponent hgod, hid⟩

/-- A large component on which two others depend, and one that stands alone. -/
def hubRecords : List ComponentRecord :=
  [⟨"alone", "alone", "alone", 1, .empty, .empty, [], false, false⟩,
   ⟨"client", "client", "client", 1, .empty, .empty, [⟨"hub", .imports, []⟩], false, false⟩,
   ⟨"driver", "driver", "driver", 1, .empty, .empty, [⟨"hub", .imports, []⟩], false, false⟩,
   ⟨"hub", "hub", "hub", 900, .ofList ["get", "put"], .empty, [⟨"driver", .imports, []⟩], false,
     false⟩]

def hubGraph : Graph Float :=
  (GraphBuild.ofSorted hubRecords).graph

/-- Thresholds that a few dependencies exceed. -/
def lowThresholds : AntiPatternConfig Float :=
  ⟨0.5, 1, 10, ⟨100, 0, 1⟩⟩

def highThresholds : AntiPatternConfig Float :=
  ⟨0.75, 2, 20, ⟨500, 0, 1⟩⟩

theorem raised_highThresholds : Raised lowThresholds highThresholds := by
  constructor
  all_goals decide +kernel

theorem couplingReference_hubGraph : couplingReference highThresholds hubGraph = 2 := by
  have hdegrees : hubGraph.components.map (·.metrics.totalCoupling) = [0, 1, 2, 3] := by
    decide +kernel
  have hsorted : [0, 1, 2, 3].mergeSort = [0, 1, 2, 3] := List.mergeSort_of_pairwise (by decide)
  rw [couplingReference, hdegrees, nearestRank, hsorted]
  decide +kernel

/-- The hub exceeds the higher percentile and the higher limits, and hence the lower ones. -/
theorem flagged_of_raised_hubGraph :
    Raised lowThresholds highThresholds ∧
    Flagged (detect highThresholds hubGraph [] .undetermined) .tightCoupling "hub" ∧
    Flagged (detect highThresholds hubGraph [] .undetermined) .godComponent "hub" ∧
    Flagged (detect lowThresholds hubGraph [] .undetermined) .tightCoupling "hub" ∧
    Flagged (detect lowThresholds hubGraph [] .undetermined) .godComponent "hub" := by
  have htight : Flagged (detect highThresholds hubGraph [] .undetermined) .tightCoupling "hub" := by
    rw [flagged_tightCoupling_iff, couplingReference_hubGraph]
    decide +kernel
  have hgod : Flagged (detect highThresholds hubGraph [] .undetermined) .godComponent "hub" := by
    rw [flagged_godComponent_iff]
    decide +kernel
  have hlow := flagged_of_raised raised_highThresholds hubGraph [] .undetermined
  exact ⟨raised_highThresholds, htight, hgod, hlow.1 "hub" htight, hlow.2 "hub" hgod⟩

end AntiPattern

end ArchAudit
