-- SUMMARY: Every finding has an exact severity within the range of its kind, and none is clipped.
import ArchAudit.Proofs.ExactScalars
import ArchAudit.Proofs.Findings
import ArchAudit.Proofs.MutualCoupling
import ArchAudit.Proofs.PrunedReferences
import ArchAudit.Proofs.ReferentialClosure
import ArchAudit.Proofs.StyleResults
import ArchAudit.Proofs.Thresholds

/-!
# Severities

The formulas for severities divide: by the coupling of a component, by its size, by the number
of pairs that a style judges. None of these is zero for what is found, since whatever is found
exceeds a limit. To say so, each formula is read a second time with a division that fails if
the divisor is zero. The values lie in a range that depends on the kind of finding only, and
within the unit interval, so that they are recorded as they are.
-/

namespace ArchAudit

-- ---------------------------------------------------------------------------
-- Formulas that may fail
-- ---------------------------------------------------------------------------

/-- The quotient, if the divisor is not zero. -/
def quotient? (x y : Rat) : Option Rat :=
  if y = 0 then none else some (x / y)

theorem quotient?_of_pos {x y : Rat} (hy : 0 < y) : quotient? x y = some (x / y) :=
  if_neg hy.ne'

def CycleGroup.severity? (c : CycleGroup) : Option Rat :=
  let x : Rat := 1 / 4 * c.members.length + 1 / 20 * c.internalWeight
  quotient? x (1 + x)

def excess? (value limit : Nat) : Option Rat :=
  (quotient? limit value).map (1 - ·)

def couplingSeverity? (baseline degree : Nat) (betweenness : Rat) : Option Rat :=
  (excess? degree baseline).map fun x => max (1 / 20) (min 1 (x + 3 / 10 * betweenness))

def mutualSeverity? (weight : Nat) : Option Rat :=
  (quotient? (2 / 5 * weight) (weight + 4)).map (3 / 10 + ·)

def godSeverity? (limits : GodComponentLimits) (c : Component Rat) : Option Rat := do
  let loc ← excess? c.loc limits.loc
  let efferent ← excess? c.metrics.efferent limits.efferent
  let exported ← excess? c.exportedSymbols.size limits.exportedSymbols
  return 3 / 10 + 7 / 10 * ((loc + efferent + exported) / 3)

def erosionSeverity? (r : StyleResult Rat) : Option Rat :=
  quotient? r.metrics.violatingEdges r.metrics.inScopeEdges

-- ---------------------------------------------------------------------------
-- The formulas and their ranges
-- ---------------------------------------------------------------------------

theorem CycleGroup.severity?_eq (c : CycleGroup) : c.severity? = some c.severity := by
  rw [severity?, quotient?_of_pos (by positivity), severity_eq]

theorem CycleGroup.severity_mem {c : CycleGroup} (h : c.members ≠ []) :
    c.severity ∈ Set.Ioo (0 : Rat) 1 := by
  have hmembers : (0 : Rat) < c.members.length := Nat.cast_pos.2 (List.length_pos_iff.2 h)
  rw [severity_eq]
  constructor
  · positivity
  · rw [div_lt_one (by positivity)]
    exact lt_one_add _

theorem excess_rat (value limit : Nat) : (excess value limit : Rat) = 1 - limit / value := by
  rw [excess, Scalar.one_rat]

section

variable {value limit : Nat}

theorem excess?_eq (h : limit < value) : excess? value limit = some (excess value limit) := by
  have hvalue : (0 : Rat) < value := Nat.cast_pos.2 (Nat.zero_lt_of_lt h)
  rw [excess?, quotient?_of_pos hvalue, excess_rat]
  rfl

theorem excess_mem (h : limit < value) : excess value limit ∈ Set.Ioc (0 : Rat) 1 := by
  have hvalue : (0 : Rat) < value := Nat.cast_pos.2 (Nat.zero_lt_of_lt h)
  have hshare : (limit : Rat) / value < 1 := (div_lt_one hvalue).2 (Nat.cast_lt.2 h)
  rw [excess_rat]
  exact ⟨sub_pos.2 hshare, sub_le_self _ (by positivity)⟩

end

theorem couplingSeverity_rat (baseline degree : Nat) (betweenness : Rat) :
    couplingSeverity baseline degree betweenness =
      max (1 / 20) (min 1 (excess degree baseline + 3 / 10 * betweenness)) := by
  rw [couplingSeverity, Scalar.clamp_rat (by norm_num), bottleneckWeight]
  norm_num

section

variable {baseline degree : Nat}

theorem couplingSeverity?_eq (h : baseline < degree) (betweenness : Rat) :
    couplingSeverity? baseline degree betweenness =
      some (couplingSeverity baseline degree betweenness) := by
  rw [couplingSeverity?, excess?_eq h, couplingSeverity_rat]
  rfl

theorem couplingSeverity_mem (baseline degree : Nat) (betweenness : Rat) :
    couplingSeverity baseline degree betweenness ∈ Set.Icc (1 / 20 : Rat) 1 := by
  rw [couplingSeverity_rat]
  exact ⟨le_max_left _ _, max_le (by norm_num) (min_le_left _ _)⟩

end

theorem mutualSeverity_rat (weight : Nat) :
    (mutualSeverity weight : Rat) = 3 / 10 + 2 / 5 * weight / (weight + 4) := by
  change (0.3 : Rat) + 0.4 * weight / (weight + 4.0) = _
  norm_num

theorem mutualSeverity?_eq (weight : Nat) :
    mutualSeverity? weight = some (mutualSeverity weight) := by
  rw [mutualSeverity?, quotient?_of_pos (by positivity), mutualSeverity_rat]
  rfl

theorem mutualSeverity_mem {weight : Nat} (h : 0 < weight) :
    mutualSeverity weight ∈ Set.Ioo (3 / 10 : Rat) (7 / 10) := by
  have hweight : (0 : Rat) < weight := Nat.cast_pos.2 h
  have hshare : 2 / 5 * (weight : Rat) / (weight + 4) < 2 / 5 := by
    rw [div_lt_iff₀ (by positivity)]
    linarith
  rw [mutualSeverity_rat]
  constructor
  · exact lt_add_of_pos_right _ (by positivity)
  · linarith

theorem godSeverity_rat (limits : GodComponentLimits) (c : Component Rat) :
    godSeverity limits c = 3 / 10 + 7 / 10 *
      ((excess c.loc limits.loc + excess c.metrics.efferent limits.efferent
        + excess c.exportedSymbols.size limits.exportedSymbols) / 3) := by
  rw [godSeverity]
  norm_num

section

variable {limits : GodComponentLimits} {c : Component Rat}

theorem AntiPattern.isGodComponent_iff : isGodComponent limits c = true ↔
    limits.loc < c.loc ∧ limits.efferent < c.metrics.efferent ∧
      limits.exportedSymbols < c.exportedSymbols.size := by
  simp only [isGodComponent, Bool.and_eq_true, decide_eq_true_iff, and_assoc]

theorem godSeverity?_eq (h : AntiPattern.isGodComponent limits c = true) :
    godSeverity? limits c = some (godSeverity limits c) := by
  obtain ⟨hloc, hefferent, hexported⟩ := AntiPattern.isGodComponent_iff.1 h
  rw [godSeverity?, excess?_eq hloc, excess?_eq hefferent, excess?_eq hexported, godSeverity_rat]
  rfl

theorem godSeverity_mem (h : AntiPattern.isGodComponent limits c = true) :
    godSeverity limits c ∈ Set.Ioc (3 / 10 : Rat) 1 := by
  obtain ⟨hloc, hefferent, hexported⟩ := AntiPattern.isGodComponent_iff.1 h
  obtain ⟨hloc, hloc'⟩ := excess_mem hloc
  obtain ⟨hefferent, hefferent'⟩ := excess_mem hefferent
  obtain ⟨hexported, hexported'⟩ := excess_mem hexported
  rw [godSeverity_rat]
  constructor
  · linarith
  · linarith

end

theorem erosionSeverity_mem {violating inScope : Nat} (hpos : 0 < violating)
    (hle : violating ≤ inScope) : (violating / inScope : Rat) ∈ Set.Ioc 0 1 := by
  have hviolating : (0 : Rat) < violating := Nat.cast_pos.2 hpos
  have hscope : (0 : Rat) < inScope := Nat.cast_pos.2 (hpos.trans_le hle)
  exact ⟨div_pos hviolating hscope, (div_le_one hscope).2 (Nat.cast_le.2 hle)⟩

-- ---------------------------------------------------------------------------
-- Recording
-- ---------------------------------------------------------------------------

/-- The range of the severities of a kind. -/
def severityRange : ViolationKind → Set Rat
  | .cycle => Set.Ioo 0 1
  | .tightCoupling => Set.Icc (1 / 20) 1
  | .bidirectionalCoupling => Set.Ioo (3 / 10) (7 / 10)
  | .godComponent => Set.Ioc (3 / 10) 1
  | .erosion => Set.Ioc 0 1
  | .layerViolation => Set.Icc 0 1

theorem severityRange_subset (kind : ViolationKind) : severityRange kind ⊆ Set.Icc 0 1 := by
  cases kind with
  | cycle => exact Set.Ioo_subset_Icc_self
  | tightCoupling => exact Set.Icc_subset_Icc_left (by norm_num)
  | bidirectionalCoupling =>
    exact Set.Ioo_subset_Icc_self.trans (Set.Icc_subset_Icc (by norm_num) (by norm_num))
  | godComponent => exact Set.Ioc_subset_Icc_self.trans (Set.Icc_subset_Icc_left (by norm_num))
  | erosion => exact Set.Ioc_subset_Icc_self
  | layerViolation => exact subset_rfl

theorem Violation.recordedSeverity_of_mem {kind : ViolationKind} {x : Rat}
    (h : x ∈ severityRange kind) : recordedSeverity x = x := by
  have hfinite : Scalar.isFinite x = true := rfl
  rw [recordedSeverity, if_pos hfinite, Scalar.clampUnit_of_mem (severityRange_subset kind h)]

theorem SeverityBand.ofScore_eq_minor_iff {x : Rat} : ofScore x = .minor ↔ x < 3 / 10 := by
  have hsevere : (0.6 : Rat) = 3 / 5 := by norm_num
  have hmoderate : (0.3 : Rat) = 3 / 10 := by norm_num
  rw [ofScore, hsevere, hmoderate]
  grind

/-- The findings have the severities that the formulas give without dividing by zero. Each one
    is within the range of its kind, and is told by the band. -/
structure Exact (findings : List (Violation Rat)) (severities? : Option (List Rat)) : Prop where
  severities_eq : severities? = some (findings.map (·.severity))
  mem_range : ∀ v ∈ findings, v.severity ∈ severityRange v.kind
  band_eq : ∀ v ∈ findings, v.band = .ofScore v.severity

theorem mapM_eq_some_severities {β : Type} {f : Nat → β → Violation Rat} {s? : β → Option Rat}
    {l : List β} (h : ∀ b ∈ l, ∀ i, s? b = some (f i b).severity) :
    l.mapM s? = some ((l.mapIdx f).map (·.severity)) := by
  induction l generalizing f with
  | nil => rfl
  | cons b l ih =>
    have hrest := ih (f := fun i => f (i + 1)) fun c hc i => h c (List.mem_cons_of_mem b hc) (i + 1)
    rw [List.mapM_cons, h b List.mem_cons_self 0, hrest, List.mapIdx_cons]
    rfl

/-- Findings of one kind are exact if the formula is, for whatever they are made from. -/
theorem Exact.of_formula {β : Type} (kind : ViolationKind) (s : β → Rat)
    {f : Nat → β → Violation Rat} {s? : β → Option Rat} {l : List β}
    (hmade : ∀ i b, ∃ id participants description style,
      f i b = .make id kind (s b) participants description style)
    (h : ∀ b ∈ l, s? b = some (s b) ∧ s b ∈ severityRange kind) :
    Exact (l.mapIdx f) (l.mapM s?) := by
  have hrecorded : ∀ b ∈ l, ∀ i, (f i b).severity = s b := by
    intro b hb i
    obtain ⟨_, _, _, _, hf⟩ := hmade i b
    rw [hf]
    exact Violation.recordedSeverity_of_mem (h b hb).2
  refine ⟨mapM_eq_some_severities fun b hb i => ?_, fun v hv => ?_, fun v hv => ?_⟩
  · rw [(h b hb).1, hrecorded b hb i]
  · obtain ⟨i, b, hb, rfl⟩ := exists_of_mem_mapIdx hv
    obtain ⟨_, _, _, _, hf⟩ := hmade i b
    have hkind : (f i b).kind = kind := by rw [hf]; rfl
    rw [hrecorded b hb i, hkind]
    exact (h b hb).2
  · obtain ⟨i, b, -, rfl⟩ := exists_of_mem_mapIdx hv
    obtain ⟨_, _, _, _, hf⟩ := hmade i b
    rw [hf]
    rfl

-- ---------------------------------------------------------------------------
-- Weights
-- ---------------------------------------------------------------------------

theorem Edge.weight_le_totalWeight {l : List Edge} {e : Edge} (h : e ∈ l) :
    e.weight ≤ totalWeight l := by
  induction h with
  | head l => exact Nat.le_add_right _ _
  | tail f _ ih => exact ih.trans (Nat.le_add_left _ _)

/-- Every edge of a built graph stands for some reference. -/
theorem GraphBuild.weight_pos_of_ofRecords {α : Type} [Scalar α] {records : List ComponentRecord}
    {build : GraphBuild α} (h : ofRecords records = .ok build) {e : Edge}
    (he : e ∈ build.graph.edges) : 0 < e.weight := by
  obtain ⟨_, rfl⟩ := ofRecords_eq_ok_iff.1 h
  obtain ⟨m, hm, hmakes⟩ := exists_makes_of_mem_edges he
  rw [(mem_edges_ofSorted.1 he).weight, Mention.weightAt_filterMap_edge?, List.countP_pos_iff]
  exact ⟨m, hm, decide_eq_true hmakes⟩

theorem Graph.weightBetween_pos {α : Type} [Scalar α] {g : Graph α} {a b : ComponentId}
    (hweight : ∀ e ∈ g.edges, 0 < e.weight) (h : g.Joins a b) : 0 < g.weightBetween a b := by
  obtain ⟨e, he, rfl, rfl⟩ := h
  have hmem : e ∈ g.edges.filter fun f => f.source == e.source && f.target == e.target :=
    List.mem_filter.2 ⟨he, by simp⟩
  exact (hweight e he).trans_le (Edge.weight_le_totalWeight hmem)

-- ---------------------------------------------------------------------------
-- Findings
-- ---------------------------------------------------------------------------

/-- The result is that of looking for some style in some graph. -/
def StyleResult.Detected {α : Type} [Scalar α] (r : StyleResult α) : Prop :=
  ∃ (t : StyleTable) (config : StyleConfig α) (g : Graph α) (intents : List (IntentResult α)),
    r = t.detect config g intents

theorem StyleResult.Detected.consistent {α : Type} [Scalar α] {r : StyleResult α}
    (h : r.Detected) : r.Consistent := by
  obtain ⟨t, config, g, intents, rfl⟩ := h
  exact t.consistent_detect config g intents

namespace AntiPattern

variable {config : AntiPatternConfig Rat} {g : Graph Rat} {styles : List (StyleResult Rat)}
  {classification : Classification}

theorem exact_cycles (g : Graph Rat) : Exact (cycles g) (g.cycles.mapM (·.severity?)) := by
  refine Exact.of_formula .cycle CycleGroup.severity (fun _ _ => ⟨_, _, _, _, rfl⟩) fun c hc => ?_
  obtain ⟨a, ha⟩ := Graph.exists_mem_members hc
  exact ⟨c.severity?_eq, CycleGroup.severity_mem (List.ne_nil_of_mem ha)⟩

theorem baseline_lt_of_isTightlyCoupled {reference : Nat} {c : Component Rat}
    (h : isTightlyCoupled config reference c = true) :
    Nat.min reference config.couplingCap < c.metrics.totalCoupling := by
  simp only [isTightlyCoupled, Bool.or_eq_true, Bool.and_eq_true, decide_eq_true_iff] at h
  rcases h with ⟨hreference, -⟩ | hcap
  · exact (min_le_left _ _).trans_lt hreference
  · exact (min_le_right _ _).trans_lt hcap

theorem exact_tightCoupling (config : AntiPatternConfig Rat) (g : Graph Rat) :
    Exact (tightCoupling config g)
    ((g.components.filter (isTightlyCoupled config (couplingReference config g))).mapM fun c =>
      couplingSeverity? (Nat.min (couplingReference config g) config.couplingCap)
        c.metrics.totalCoupling c.metrics.betweennessCentrality) := by
  refine Exact.of_formula .tightCoupling _ (fun _ _ => ⟨_, _, _, _, rfl⟩) fun c hc => ?_
  have hlt := baseline_lt_of_isTightlyCoupled (List.mem_filter.1 hc).2
  exact ⟨couplingSeverity?_eq hlt _, couplingSeverity_mem _ _ _⟩

theorem exact_bidirectionalCoupling (h : g.WellFormed) (hweight : ∀ e ∈ g.edges, 0 < e.weight) :
    Exact (bidirectionalCoupling g) ((mutualPairs g).mapM fun p =>
      mutualSeverity? (g.weightBetween p.1 p.2 + g.weightBetween p.2 p.1)) := by
  refine Exact.of_formula .bidirectionalCoupling _ (fun _ _ => ⟨_, _, _, _, rfl⟩) fun p hp => ?_
  obtain ⟨-, hjoins, -⟩ := (mem_mutualPairs h).1 hp
  have hpos := Graph.weightBetween_pos hweight hjoins
  exact ⟨mutualSeverity?_eq _, mutualSeverity_mem (Nat.add_pos_left hpos _)⟩

theorem exact_godComponents (config : AntiPatternConfig Rat) (g : Graph Rat) :
    Exact (godComponents config g)
    ((g.components.filter (isGodComponent config.godComponent)).mapM
      (godSeverity? config.godComponent)) := by
  refine Exact.of_formula .godComponent (godSeverity config.godComponent)
    (fun _ _ => ⟨_, _, _, _, rfl⟩) fun c hc => ?_
  have hgod := (List.mem_filter.1 hc).2
  exact ⟨godSeverity?_eq hgod, godSeverity_mem hgod⟩

theorem mem_styles_of_mem_eroded {r : StyleResult Rat} (h : r ∈ eroded styles classification) :
    r ∈ styles ∧ 0 < r.metrics.violatingEdges := by
  simp only [eroded, List.mem_filter, List.mem_filterMap, Bool.and_eq_true, decide_eq_true_iff] at h
  obtain ⟨⟨kind, -, hfind⟩, hviolating, -⟩ := h
  exact ⟨List.mem_of_find?_eq_some hfind, hviolating⟩

theorem exact_erosion (h : ∀ r ∈ styles, r.Consistent) (classification : Classification) :
    Exact (erosion styles classification)
      ((eroded styles classification).mapM erosionSeverity?) := by
  refine Exact.of_formula .erosion _ (fun _ _ => ⟨_, _, _, _, rfl⟩) fun r hr => ?_
  obtain ⟨hmem, hpos⟩ := mem_styles_of_mem_eroded hr
  have hle : r.metrics.violatingEdges ≤ r.metrics.inScopeEdges :=
    (h r hmem).counted ▸ (h r hmem).inScope
  have hscope : (0 : Rat) < r.metrics.inScopeEdges := Nat.cast_pos.2 (hpos.trans_le hle)
  exact ⟨quotient?_of_pos hscope, erosionSeverity_mem hpos hle⟩

/-- The severities of all findings, unless one of the formulas divides by zero. -/
def severities? (config : AntiPatternConfig Rat) (g : Graph Rat)
    (styles : List (StyleResult Rat)) (classification : Classification) : Option (List Rat) := do
  let reference := couplingReference config g
  let cyclic ← g.cycles.mapM (·.severity?)
  let tight ← (g.components.filter (isTightlyCoupled config reference)).mapM fun c =>
    couplingSeverity? (Nat.min reference config.couplingCap) c.metrics.totalCoupling
      c.metrics.betweennessCentrality
  let paired ← (mutualPairs g).mapM fun p =>
    mutualSeverity? (g.weightBetween p.1 p.2 + g.weightBetween p.2 p.1)
  let large ← (g.components.filter (isGodComponent config.godComponent)).mapM
    (godSeverity? config.godComponent)
  let broken ← (eroded styles classification).mapM erosionSeverity?
  return cyclic ++ tight ++ paired ++ large ++ broken

theorem exact_detect (config : AntiPatternConfig Rat) (h : g.WellFormed)
    (hweight : ∀ e ∈ g.edges, 0 < e.weight) (hstyles : ∀ r ∈ styles, r.Consistent)
    (classification : Classification) :
    Exact (detect config g styles classification) (severities? config g styles classification) := by
  have hcycles := exact_cycles g
  have htight := exact_tightCoupling config g
  have hmutual := exact_bidirectionalCoupling h hweight
  have hgod := exact_godComponents config g
  have herosion := exact_erosion hstyles classification
  constructor
  · simp only [severities?, hcycles.severities_eq, htight.severities_eq, hmutual.severities_eq,
      hgod.severities_eq, herosion.severities_eq, detect, List.map_append]
    rfl
  · simp only [detect, List.mem_append, or_imp, forall_and]
    exact ⟨⟨⟨⟨hcycles.mem_range, htight.mem_range⟩, hmutual.mem_range⟩, hgod.mem_range⟩,
      herosion.mem_range⟩
  · simp only [detect, List.mem_append, or_imp, forall_and]
    exact ⟨⟨⟨⟨hcycles.band_eq, htight.band_eq⟩, hmutual.band_eq⟩, hgod.band_eq⟩, herosion.band_eq⟩

/-- In exact arithmetic no severity divides by zero and none is clipped. Each is within the range
    of its kind, so that oversized components and mutual dependencies are never minor, and what
    is flagged for its coupling exceeds the baseline by a positive share. -/
theorem severities_within_ranges {records : List ComponentRecord} {build : GraphBuild Rat}
    (hbuild : GraphBuild.ofRecords records = .ok build) (config : AntiPatternConfig Rat)
    {styles : List (StyleResult Rat)} (hstyles : ∀ r ∈ styles, r.Detected)
    (classification : Classification) :
    severities? config build.graph styles classification =
      some ((detect config build.graph styles classification).map (·.severity)) ∧
    (∀ v ∈ detect config build.graph styles classification,
      v.severity ∈ severityRange v.kind ∧
      (v.kind = .godComponent ∨ v.kind = .bidirectionalCoupling → v.band ≠ .minor)) ∧
    ∀ c ∈ build.graph.components,
      isTightlyCoupled config (couplingReference config build.graph) c = true →
      0 < c.metrics.totalCoupling ∧
      min (couplingReference config build.graph) config.couplingCap < c.metrics.totalCoupling ∧
      (0 : Rat) < excess c.metrics.totalCoupling
        (min (couplingReference config build.graph) config.couplingCap) := by
  have hexact := exact_detect config (GraphBuild.wellFormed_of_ofRecords hbuild)
    (fun e he => GraphBuild.weight_pos_of_ofRecords hbuild he)
    (fun r hr => (hstyles r hr).consistent) classification
  refine ⟨hexact.severities_eq, fun v hv => ⟨hexact.mem_range v hv, fun hkind => ?_⟩, ?_⟩
  · rw [hexact.band_eq v hv, Ne, SeverityBand.ofScore_eq_minor_iff, not_lt]
    have hrange := hexact.mem_range v hv
    rcases hkind with hkind | hkind
    all_goals
      rw [hkind] at hrange
      exact hrange.1.le
  · intro c _ htight
    have hlt := baseline_lt_of_isTightlyCoupled htight
    exact ⟨Nat.zero_lt_of_lt hlt, hlt, (excess_mem hlt).1⟩

/-- Thresholds that every coupling and every size exceeds. -/
def zeroThresholds : AntiPatternConfig Rat :=
  ⟨0, 0, 0, ⟨0, 0, 0⟩⟩

/-- Three layers of which the lowest is large and depends on the highest. -/
def upwardRecords : List ComponentRecord :=
  [⟨"db", "db", "db", 900, .ofList ["get", "put"], .empty, [⟨"ui", .imports, []⟩], false, false⟩,
   Report.importer "service" ["db"], Report.importer "ui" ["service"]]

theorem ofRecords_upwardRecords :
    GraphBuild.ofRecords upwardRecords = .ok (GraphBuild.ofSorted upwardRecords : GraphBuild Rat) :=
  GraphBuild.ofRecords_of_ascending (by decide) (by decide)

/-- With limits of zero the lowest layer is oversized, and not a minor finding. One of the three
    dependencies breaks the style, which erodes it by a third. -/
theorem severities_within_ranges_upwardRecords :
    ∃ build : GraphBuild Rat, GraphBuild.ofRecords upwardRecords = .ok build ∧
      let findings := detect zeroThresholds build.graph
        [StyleTable.layered.detect (.standard Rat) build.graph []] (.single .layered)
      (∃ v ∈ findings, v.kind = .godComponent ∧ "db" ∈ v.participants ∧
        v.severity ∈ Set.Ioc (3 / 10 : Rat) 1 ∧ v.band ≠ .minor) ∧
      ∃ v ∈ findings, v.kind = .erosion ∧ v.severity = 1 / 3 ∧
        v.severity ∈ Set.Ioc (0 : Rat) 1 := by
  refine ⟨_, ofRecords_upwardRecords, ?_⟩
  intro findings
  have hgod : Flagged findings .godComponent "db" := by
    rw [flagged_godComponent_iff]
    decide +kernel
  have herosion : ∃ v ∈ findings, v.kind = .erosion ∧ v.severity = 1 / 3 := by
    have hblock : ∃ v ∈ erosion [StyleTable.layered.detect (.standard Rat)
        (GraphBuild.ofSorted upwardRecords).graph []] (.single .layered),
        v.kind = .erosion ∧ v.severity = 1 / 3 := by
      decide +kernel
    obtain ⟨v, hv, hfound⟩ := hblock
    exact ⟨v, List.mem_append_right _ hv, hfound⟩
  obtain ⟨-, hrange, -⟩ := severities_within_ranges ofRecords_upwardRecords zeroThresholds
    (List.forall_mem_singleton.2 ⟨_, _, _, _, rfl⟩) (.single .layered)
  refine ⟨?_, ?_⟩
  · obtain ⟨v, hv, hkind, hid⟩ := hgod
    obtain ⟨hseverity, hband⟩ := hrange v hv
    rw [hkind] at hseverity
    exact ⟨v, hv, hkind, hid, hseverity, hband (.inl hkind)⟩
  · obtain ⟨v, hv, hkind, hthird⟩ := herosion
    have hseverity := (hrange v hv).1
    rw [hkind] at hseverity
    exact ⟨v, hv, hkind, hthird, hseverity⟩

end AntiPattern

end ArchAudit
