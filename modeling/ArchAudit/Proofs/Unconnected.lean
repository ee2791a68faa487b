-- SUMMARY: What a report says of components that do not depend on each other.
import ArchAudit.Proofs.Binary64Values
import ArchAudit.Proofs.ExactScalars
import ArchAudit.Proofs.Findings
import ArchAudit.Proofs.Names
import ArchAudit.Proofs.Reachability
import ArchAudit.Proofs.StandardAnalysis

/-!
# Unconnected components

Where no edge joins two distinct components, there is nothing to find but the components that
refer to themselves, and nothing to measure.
-/

namespace ArchAudit

/-! ## Graphs -/

namespace Graph

variable {α : Type} {g : Graph α}

/-- No edge joins two distinct components. -/
def Unconnected (g : Graph α) : Prop :=
  ∀ e ∈ g.edges, e.source = e.target

instance : Decidable g.Unconnected :=
  inferInstanceAs (Decidable (∀ e ∈ g.edges, e.source = e.target))

namespace Unconnected

theorem dependencyEdges_eq_nil (h : g.Unconnected) : g.dependencyEdges = [] := by
  rw [dependencyEdges, List.filter_eq_nil_iff]
  intro e he
  simp [Edge.isSelfLoop, h e he]

theorem arcs_eq_nil (h : g.Unconnected) : g.arcs = [] := by
  have hnone (id : ComponentId) : g.dependencies id = [] := by
    rw [dependencies, h.dependencyEdges_eq_nil]
    rfl
  simp [arcs, hnone]

theorem eq_of_reaches (h : g.Unconnected) {a b : ComponentId} (hpath : g.Reaches a b) : a = b := by
  induction hpath with
  | refl => rfl
  | tail _ hjoins ih =>
    obtain ⟨e, he, hsource, htarget⟩ := hjoins
    rw [ih, ← hsource, ← htarget]
    exact h e he

/-- Each component is a group of its own. -/
theorem mutuallyReachable_eq (h : g.Unconnected) (hg : g.WellFormed) {a : ComponentId}
    (ha : a ∈ g.ids) : mutuallyReachable g.reachable a = [a] := by
  apply (hg.ascending.sublist (mutuallyReachable_sublist g a)).eq_of_mem_iff
    (List.pairwise_singleton _ a)
  intro b
  rw [hg.mem_mutuallyReachable ha, List.mem_singleton]
  constructor
  · intro hmutual
    exact (h.eq_of_reaches hmutual.1).symm
  · rintro rfl
    exact .refl g b

theorem map_members_cycles (h : g.Unconnected) (hg : g.WellFormed) :
    g.cycles.map (·.members) = (g.ids.filter fun id => g.hasEdge id id).map ([·]) := by
  rw [cycles, List.map_filterMap, ← List.filterMap_eq_filter, List.map_filterMap]
  apply List.filterMap_congr
  intro id hid
  simp only [h.mutuallyReachable_eq hg hid]
  cases hself : g.hasEdge id id <;> simp [hself, Option.guard]

/-- Metrics that were filled in count no dependency. -/
theorem uncoupled [Scalar α] (h : g.Unconnected) {c : Component α}
    (hc : c ∈ g.withMetrics.components) : c.metrics.afferent = 0 ∧ c.metrics.efferent = 0 := by
  obtain ⟨i, hi, rfl⟩ := List.mem_iff_getElem.1 hc
  simp [withMetrics, metricsOf, h.dependencyEdges_eq_nil]

end Unconnected

end Graph

/-- Some reference of the record means its own component. -/
def ComponentRecord.refersToItself (addresses : List Address) (r : ComponentRecord) : Bool :=
  r.references.any fun reference =>
    ((Mention.mk r.componentId reference).resolve addresses).target? == some r.componentId

namespace GraphBuild

variable {α : Type} [Scalar α] {records : List ComponentRecord}

theorem hasEdge_ofSorted_self (hids : (records.map (·.componentId)).Nodup) {r : ComponentRecord}
    (hr : r ∈ records) :
    (ofSorted records : GraphBuild α).graph.hasEdge r.componentId r.componentId =
      r.refersToItself (ofSorted records : GraphBuild α).graph.addresses := by
  rw [Bool.eq_iff_iff, Graph.hasEdge_iff, joins_ofSorted_iff, ComponentRecord.refersToItself,
    List.any_eq_true]
  simp only [beq_iff_eq]
  constructor
  · rintro ⟨⟨source, reference⟩, hm, rfl, htarget⟩
    obtain ⟨r', hr', hid, hreference⟩ := mem_mentions.1 hm
    cases List.inj_on_of_nodup_map hids hr' hr hid
    exact ⟨reference, hreference, htarget⟩
  · rintro ⟨reference, hreference, htarget⟩
    exact ⟨⟨r.componentId, reference⟩, mem_mentions.2 ⟨r, hr, rfl, hreference⟩, rfl, htarget⟩

theorem map_members_cycles_ofSorted (hg : (ofSorted records : GraphBuild α).graph.WellFormed)
    (h : (ofSorted records : GraphBuild α).graph.Unconnected) :
    (ofSorted records : GraphBuild α).graph.cycles.map (·.members) =
      (records.filter (·.refersToItself (ofSorted records : GraphBuild α).graph.addresses)).map
        ([·.componentId]) := by
  have hids : (records.map (·.componentId)).Nodup := by
    rw [← ids_ofSorted (α := α)]
    exact hg.nodup_ids
  have hself := List.filter_congr fun r hr => hasEdge_ofSorted_self (α := α) hids (r := r) hr
  rw [h.map_members_cycles hg, ids_ofSorted, List.filter_map, List.map_map, ← hself]
  rfl

end GraphBuild

/-! ## Detectors -/

section

variable {α : Type} [Scalar α] {g : Graph α}

theorem AntiPattern.detect_eq_cycles {config : AntiPatternConfig α} {styles : List (StyleResult α)}
    (h : g.Unconnected)
    (huncoupled : ∀ c ∈ g.components, c.metrics.afferent = 0 ∧ c.metrics.efferent = 0) :
    detect config g styles .undetermined = cycles g := by
  have htight : tightCoupling config g = [] := by
    have hnone :
        g.components.filter (isTightlyCoupled config (couplingReference config g)) = [] := by
      rw [List.filter_eq_nil_iff]
      intro c hc
      simp [isTightlyCoupled, Metrics.totalCoupling, huncoupled c hc]
    rw [tightCoupling, hnone]
    rfl
  have hgod : godComponents config g = [] := by
    have hnone : g.components.filter (isGodComponent config.godComponent) = [] := by
      rw [List.filter_eq_nil_iff]
      intro c hc
      simp [isGodComponent, huncoupled c hc]
    rw [godComponents, hnone]
    rfl
  have hmutual : bidirectionalCoupling g = [] := by
    rw [bidirectionalCoupling, mutualPairs, h.arcs_eq_nil]
    rfl
  have herosion : erosion styles .undetermined = [] := rfl
  simp [detect, htight, hgod, hmutual, herosion]

theorem StyleTable.detect_of_unconnected (t : StyleTable) (config : StyleConfig α)
    (intents : List (IntentResult α)) (h : g.Unconnected) :
    (t.detect config g intents).confidence = 0.0 ∧
      (t.detect config g intents).insufficientData = true := by
  have hjudge (roles : NameMap Role) : t.judge g roles = [] := by
    rw [judge, h.arcs_eq_nil]
    rfl
  rw [detect]
  split
  · exact ⟨rfl, rfl⟩
  · simp [hjudge, confidence]

theorem Classification.ofResults_of_unconfident {config : StyleConfig α}
    {results : List (StyleResult α)} (hresults : ∀ r ∈ results, r.confidence = 0.0)
    (hthreshold : ¬ config.confidenceThreshold < 0.0) :
    ofResults config results = .undetermined := by
  have hnone : results.filter (fun r => config.confidenceThreshold < r.confidence) = [] := by
    rw [List.filter_eq_nil_iff]
    intro r hr
    simp [hresults r hr, hthreshold]
  have hqualifying : qualifying config results = [] := by
    rw [qualifying, hnone]
    simp
  rw [ofResults, hqualifying]

/-- Parts of which none was measured have no mean. -/
theorem CombinedScore.ofParts_of_unmeasured (hstart : (Scalar.sumStart : α) ≤ 0.0)
    {parts : List (α × Ratio α)} (hne : parts ≠ []) (h : ∀ p ∈ parts, p.2.insufficient = true) :
    (ofParts parts).insufficient = true ∧ (ofParts parts).measured = none := by
  have hknown : parts.filter (!·.2.insufficient) = [] := by
    rw [List.filter_eq_nil_iff]
    intro p hp
    simp [h p hp]
  have hmean : weightedMean ([] : List (α × α)) = none := if_pos hstart
  rw [ofParts]
  split
  · exact ⟨rfl, rfl⟩
  · simp only [hknown]
    exact ⟨by simpa [List.length_pos_iff] using hne, hmean⟩

omit [Scalar α] in
theorem Inversion.descents_eq_nil (k : LayerClassifier) (h : g.Unconnected) :
    descents k g = [] := by
  rw [descents, Graph.labelledEdges, h.dependencyEdges_eq_nil]
  rfl

/-- The parts of dependency inversion, when there is nothing to measure any of them by. -/
def Inversion.unmeasuredParts (weights : InversionWeights α) : List (α × Ratio α) :=
  [weights.abstraction, weights.injection, weights.inversionRatio].map fun w => (w, .unmeasured)

theorem Inversion.detect_of_unconnected (k : LayerClassifier) (weights : InversionWeights α)
    (h : g.Unconnected)
    (huncoupled : ∀ c ∈ g.components, c.metrics.afferent = 0 ∧ c.metrics.efferent = 0)
    (hsize : 2 ≤ g.size) :
    detect k weights g = (CombinedScore.ofParts (unmeasuredParts weights)).toResult
      .dependencyInversion []
      (.ofList [("abstraction_fraction", neutralScore), ("injection_fraction", neutralScore),
        ("inversion_ratio", neutralScore)]) := by
  have hafferent : g.components.filter (fun c => 0 < c.metrics.afferent) = [] := by
    rw [List.filter_eq_nil_iff]
    intro c hc
    simp [huncoupled c hc]
  have hefferent : g.components.filter (fun c => 0 < c.metrics.efferent) = [] := by
    rw [List.filter_eq_nil_iff]
    intro c hc
    simp [huncoupled c hc]
  rw [detect, if_neg (by omega), hafferent, hefferent, descents_eq_nil k h]
  rfl

theorem Inversion.measuredScore_detect (hstart : (Scalar.sumStart : α) ≤ 0.0) (k : LayerClassifier)
    (weights : InversionWeights α) (h : g.Unconnected)
    (huncoupled : ∀ c ∈ g.components, c.metrics.afferent = 0 ∧ c.metrics.efferent = 0)
    (hsize : 2 ≤ g.size) :
    (detect k weights g).insufficientData = true ∧ (detect k weights g).measuredScore = none := by
  have hunmeasured : ∀ p ∈ unmeasuredParts weights, p.2.insufficient = true := by
    simp [unmeasuredParts, Ratio.unmeasured]
  have hne : unmeasuredParts weights ≠ [] := List.cons_ne_nil _ _
  have hcombined := CombinedScore.ofParts_of_unmeasured hstart hne hunmeasured
  rw [detect_of_unconnected k weights h huncoupled hsize]
  refine ⟨hcombined.1, ?_⟩
  simp only [IntentResult.measuredScore, CombinedScore.toResult, hcombined, if_true]
  exact NameMap.get?_ofList_eq_none (by simp [IntentResult.measuredMetric])

end

/-! ## Zero -/

/-- What the analysis relies on when it compares with zero. -/
structure Scalar.ZeroLaws (α : Type) [Scalar α] : Prop where
  not_lt_of_le : ∀ x : α, 0.0 ≤ x → ¬ x < 0.0
  sumStart_le : (sumStart : α) ≤ 0.0

theorem Scalar.zeroLaws_float : ZeroLaws Float where
  not_lt_of_le := fun _ hx => Binary64.not_lt_zero hx
  sumStart_le := by decide +kernel

theorem Scalar.zeroLaws_rat : ZeroLaws Rat where
  not_lt_of_le := by
    intro x hx
    exact Rat.not_lt.2 hx
  sumStart_le := by decide +kernel

theorem Inversion.score_detect {g : Graph Rat} (k : LayerClassifier)
    (weights : InversionWeights Rat)
    (hweights : ¬ Scalar.sum [weights.abstraction, weights.injection, weights.inversionRatio] ≤
      (0.0 : Rat)) (h : g.Unconnected)
    (huncoupled : ∀ c ∈ g.components, c.metrics.afferent = 0 ∧ c.metrics.efferent = 0)
    (hsize : 2 ≤ g.size) : (detect k weights g).score = 1 / 2 := by
  have hhalf : (neutralScore : Rat) = 1 / 2 := by decide +kernel
  have hmean : weightedMean ((unmeasuredParts weights).map fun p => (p.1, p.2.value)) =
      some (1 / 2) := by
    apply weightedMean_of_forall_eq (by norm_num)
    · rwa [Scalar.sum_rat, Scalar.zero_rat, not_le] at hweights
    · simp [unmeasuredParts, Ratio.unmeasured, hhalf]
  rw [detect_of_unconnected k weights h huncoupled hsize, CombinedScore.toResult,
    CombinedScore.ofParts, hmean]

/-! ## Reports -/

/-- The report finds nothing but components that refer to themselves, and has nothing to judge
    styles and dependency inversion by. -/
structure Report.FindsOnlyLoops {α : Type} [Scalar α] (records : List ComponentRecord)
    (r : Report α) : Prop where
  kind : ∀ v ∈ r.violations, v.kind = .cycle
  participants : r.violations.map (·.participants) =
    ((sortRecords records).filter (·.refersToItself r.graph.addresses)).map ([·.componentId])
  styles : ∀ s ∈ r.styles, s.confidence = 0.0 ∧ s.insufficientData = true
  classification : r.classification = .undetermined
  inversion : ∃ d, r.intent? .dependencyInversion = some d ∧ d.insufficientData = true ∧
    d.measuredScore = none

namespace Report.Stages

variable {α : Type} [Scalar α] {config : Config α} {records : List ComponentRecord} {r : Report α}

theorem graph_eq (h : r.Stages config records) :
    r.graph = (GraphBuild.ofSorted (sortRecords records) : GraphBuild α).graph := by
  obtain ⟨_, hbuild⟩ := GraphBuild.ofRecords_eq_ok_iff.1 h.build
  exact congrArg GraphBuild.graph hbuild

theorem uncoupled (h : r.Stages config records) (hgraph : r.graph.Unconnected) :
    ∀ c ∈ r.graph.components, c.metrics.afferent = 0 ∧ c.metrics.efferent = 0 := by
  rw [h.graph_eq] at hgraph ⊢
  intro c hc
  have hbare : (GraphBuild.bareGraph (sortRecords records) : Graph α).Unconnected := hgraph
  exact hbare.uncoupled hc

theorem size_graph (h : r.Stages config records) : r.graph.size = records.length := by
  have hids : r.graph.ids = (sortRecords records).map (·.componentId) := by
    rw [h.graph_eq, GraphBuild.ids_ofSorted]
  calc r.graph.size
    _ = r.graph.ids.length := (List.length_map _).symm
    _ = (sortRecords records).length := by rw [hids, List.length_map]
    _ = records.length := (sortRecords_perm records).length_eq

theorem intent?_dependencyInversion (h : r.Stages config records) : ∃ k,
    r.intent? .dependencyInversion =
      some (Inversion.detect k config.intents.inversionWeights r.graph) := by
  obtain ⟨k, _, hintents⟩ := h.intents
  refine ⟨k, ?_⟩
  have hseparation : (Separation.detect k config.intents.separationWeights r.graph).kind =
      .separationOfConcerns := by
    unfold Separation.detect
    split <;> rfl
  have hhiding : (Hiding.detect config.intents.hidingWeights r.graph).kind =
      .informationHiding := by
    unfold Hiding.detect
    split <;> rfl
  have hinversion : (Inversion.detect k config.intents.inversionWeights r.graph).kind =
      .dependencyInversion := by
    unfold Inversion.detect
    split <;> rfl
  simp [intent?, IntentResult.ofKind?, hintents, hseparation, hhiding, hinversion]

theorem findsOnlyLoops (h : r.Stages config records) (hlaws : Scalar.ZeroLaws α)
    (hconfig : config.Checked) (hsize : 2 ≤ records.length) (hgraph : r.graph.Unconnected) :
    r.FindsOnlyLoops records := by
  have hstyles : ∀ s ∈ r.styles, s.confidence = 0.0 ∧ s.insufficientData = true := by
    intro s hs
    obtain ⟨t, rfl⟩ := h.exists_table hs
    exact t.detect_of_unconnected config.styles r.intents hgraph
  have hclassification : r.classification = .undetermined := by
    rw [h.classification]
    exact Classification.ofResults_of_unconfident (fun s hs => (hstyles s hs).1)
      (hlaws.not_lt_of_le _ (Config.le_of_checkUnit hconfig.confidenceThreshold))
  have hviolations : r.violations = AntiPattern.cycles r.graph := by
    rw [h.violations, hclassification, AntiPattern.detect_eq_cycles hgraph (h.uncoupled hgraph)]
    simp [Classification.styles]
  refine ⟨?_, ?_, hstyles, hclassification, ?_⟩
  · intro v hv
    rw [hviolations] at hv
    obtain ⟨i, _, rfl⟩ := List.mem_mapIdx.1 hv
    rfl
  · have hwellFormed : r.graph.WellFormed := GraphBuild.wellFormed_of_ofRecords h.build
    rw [hviolations, AntiPattern.map_participants_cycles]
    rw [h.graph_eq] at hgraph hwellFormed ⊢
    exact GraphBuild.map_members_cycles_ofSorted hwellFormed hgraph
  · obtain ⟨k, hk⟩ := h.intent?_dependencyInversion
    exact ⟨_, hk, Inversion.measuredScore_detect hlaws.sumStart_le k _ hgraph (h.uncoupled hgraph)
      (hsize.trans_eq h.size_graph.symm)⟩

end Report.Stages

theorem Report.Stages.score_inversion {config : Config Rat} {records : List ComponentRecord}
    {r : Report Rat} (h : r.Stages config records) (hconfig : config.Checked)
    (hsize : 2 ≤ records.length) (hgraph : r.graph.Unconnected) {d : IntentResult Rat}
    (hd : r.intent? .dependencyInversion = some d) : d.score = 1 / 2 := by
  obtain ⟨k, hk⟩ := h.intent?_dependencyInversion
  cases hd.symm.trans hk
  have hweights := hconfig.weights
  simp only [Config.weightGroups, List.forall_mem_cons] at hweights
  exact Inversion.score_detect k _ (Config.not_sum_le_of_checkWeights hweights.2.2.1) hgraph
    (h.uncoupled hgraph) (hsize.trans_eq h.size_graph.symm)

namespace Pipeline

/-- If no edge joins two distinct components, an analysis reports each component that refers to
    itself as a cycle of its own and nothing else, sees no style, and leaves dependency inversion
    unmeasured, at one half when it is computed exactly. -/
theorem analyze_unconnected :
    (∀ config : Config Float, config.validate = .ok () →
      ∃ p, standard config = .ok p ∧
        ∀ records, Accepted records → ∃ report, p.analyze records = .ok report ∧
          (2 ≤ records.length → report.graph.Unconnected → report.FindsOnlyLoops records)) ∧
    (∀ config : Config Rat, config.validate = .ok () →
      ∃ p, standard config = .ok p ∧
        ∀ records, Accepted records → ∃ report, p.analyze records = .ok report ∧
          (2 ≤ records.length → report.graph.Unconnected → report.FindsOnlyLoops records ∧
            ∀ d, report.intent? .dependencyInversion = some d → d.score = 1 / 2)) := by
  constructor
  · intro config hconfig
    have hchecked := Config.checked_of_validate hconfig
    apply standard_ensures hconfig
    intro records report hstages hsize hgraph
    exact hstages.findsOnlyLoops Scalar.zeroLaws_float hchecked hsize hgraph
  · intro config hconfig
    have hchecked := Config.checked_of_validate hconfig
    apply standard_ensures hconfig
    intro records report hstages hsize hgraph
    exact ⟨hstages.findsOnlyLoops Scalar.zeroLaws_rat hchecked hsize hgraph,
      fun _ => hstages.score_inversion hchecked hsize hgraph⟩

/-- A component that refers to itself beside one whose only reference leads nowhere. -/
def lonelyRecords : List ComponentRecord :=
  [Report.importer "api" ["api"], Report.importer "db" ["lost"]]

theorem firstProblem?_lonelyRecords : firstProblem? 0 [] lonelyRecords = none := by
  decide

theorem ascending_lonelyRecords : lonelyRecords.Pairwise (·.componentId < ·.componentId) := by
  decide

theorem accepted_lonelyRecords : Accepted lonelyRecords :=
  (firstProblem?_eq_none_iff.1 firstProblem?_lonelyRecords).1

theorem graph_of_lonelyRecords {α : Type} [Scalar α] {config : Config α} {r : Report α}
    (h : r.Stages config lonelyRecords) : r.graph = (GraphBuild.ofSorted lonelyRecords).graph :=
  congrArg GraphBuild.graph
    (h.build_of_ascending firstProblem?_lonelyRecords ascending_lonelyRecords).symm

theorem validate_standard_rat : (Config.standard Rat).validate = .ok () := by
  decide +kernel

/-- Of the two components one is reported, and the score is exact. -/
theorem analyze_unconnected_lonelyRecords :
    ((Config.standard Float).validate = .ok () ∧ Accepted lonelyRecords ∧
      ∃ p report, standard (Config.standard Float) = .ok p ∧
        p.analyze lonelyRecords = .ok report ∧ report.graph.Unconnected ∧
        report.FindsOnlyLoops lonelyRecords ∧
        report.violations.map (·.participants) = [["api"]]) ∧
    ((Config.standard Rat).validate = .ok () ∧
      ∃ p report d, standard (Config.standard Rat) = .ok p ∧
        p.analyze lonelyRecords = .ok report ∧ report.graph.Unconnected ∧
        report.FindsOnlyLoops lonelyRecords ∧
        report.intent? .dependencyInversion = some d ∧ d.score = 1 / 2) := by
  constructor
  · obtain ⟨p, hp, hanalyze⟩ := analyze_unconnected.1 _ Config.validate_standard
    obtain ⟨report, hreport, hfinds⟩ := hanalyze _ accepted_lonelyRecords
    have hgraph := graph_of_lonelyRecords (stages_of_analyze hp hreport)
    have hunconnected : report.graph.Unconnected := by
      rw [hgraph]
      decide +kernel
    have honly := hfinds (by decide) hunconnected
    refine ⟨Config.validate_standard, accepted_lonelyRecords, p, report, hp, hreport, hunconnected,
      honly, ?_⟩
    rw [honly.participants, ← eq_sortRecords (List.Perm.refl _) ascending_lonelyRecords, hgraph,
      GraphBuild.addresses_ofSorted]
    decide +kernel
  · obtain ⟨p, hp, hanalyze⟩ := analyze_unconnected.2 _ validate_standard_rat
    obtain ⟨report, hreport, hfinds⟩ := hanalyze _ accepted_lonelyRecords
    have hgraph := graph_of_lonelyRecords (stages_of_analyze hp hreport)
    have hunconnected : report.graph.Unconnected := by
      rw [hgraph]
      decide +kernel
    obtain ⟨honly, hscore⟩ := hfinds (by decide) hunconnected
    obtain ⟨d, hd, _⟩ := honly.inversion
    exact ⟨validate_standard_rat, p, report, d, hp, hreport, hunconnected, honly, hd, hscore d hd⟩

end Pipeline

end ArchAudit
