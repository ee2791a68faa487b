-- SUMMARY: Scores, roles and styles are computed from the skeleton of a graph, which has neither weights nor self-dependencies.
import ArchAudit.Proofs.Revisions
import ArchAudit.Proofs.StandardAnalysis

/-!
# The skeleton of a graph

The skeleton of a graph has its components and, without their weights, the edges between
distinct ones. Metrics, intents, styles and the findings about single components are
computed from nothing else: each gives the same for a graph and for its skeleton. Graphs
with one skeleton are therefore assessed alike.
-/

namespace ArchAudit

/-! ## Graphs -/

namespace Edge

/-- The edge without its weight. -/
def weightless (e : Edge) : Edge :=
  { e with weight := 0 }

@[simp] theorem source_weightless (e : Edge) : e.weightless.source = e.source := rfl

@[simp] theorem target_weightless (e : Edge) : e.weightless.target = e.target := rfl

@[simp] theorem isSelfLoop_weightless (e : Edge) : e.weightless.isSelfLoop = e.isSelfLoop := rfl

/-- An edge between two distinct components is no loop. -/
theorem joins_and_not_isSelfLoop {a b : ComponentId} (hne : a ≠ b) (e : Edge) :
    (e.source == a && e.target == b && !e.isSelfLoop) = (e.source == a && e.target == b) := by
  by_cases hends : e.source = a ∧ e.target = b
  · have hloop : e.isSelfLoop = false := by
      simp [isSelfLoop, hends.1, hends.2, hne]
    rw [hloop, Bool.not_false, Bool.and_true]
  · have hfalse : (e.source == a && e.target == b) = false := by
      simpa using hends
    rw [hfalse, Bool.false_and]

end Edge

namespace Graph

variable {α : Type} {a b : ComponentId}

/-- The graph without the dependencies of components on themselves. -/
def withoutLoops (g : Graph α) : Graph α :=
  ⟨g.components, g.dependencyEdges⟩

/-- The graph without the weights of its edges. -/
def weightless (g : Graph α) : Graph α :=
  ⟨g.components, g.edges.map Edge.weightless⟩

/-- The graph without both. -/
def skeleton (g : Graph α) : Graph α :=
  g.withoutLoops.weightless

@[simp] theorem dependencyEdges_withoutLoops (g : Graph α) :
    g.withoutLoops.dependencyEdges = g.dependencyEdges := by
  simp [dependencyEdges, withoutLoops]

@[simp] theorem dependencyEdges_weightless (g : Graph α) :
    g.weightless.dependencyEdges = g.dependencyEdges.map Edge.weightless := by
  simp [dependencyEdges, weightless, List.filter_map, Function.comp_def]

@[simp] theorem dependencyEdges_skeleton (g : Graph α) :
    g.skeleton.dependencyEdges = g.dependencyEdges.map Edge.weightless := by
  rw [skeleton, dependencyEdges_weightless, dependencyEdges_withoutLoops]

@[simp] theorem skeleton_withoutLoops (g : Graph α) : g.withoutLoops.skeleton = g.skeleton := by
  rw [skeleton, withoutLoops, dependencyEdges_withoutLoops]
  rfl

/-- What is the same for a graph and its skeleton is the same for graphs of one skeleton. -/
theorem eq_of_skeleton_eq {β : Type} {f : Graph α → β} (hf : ∀ g, f g.skeleton = f g)
    {g g' : Graph α} (h : g'.skeleton = g.skeleton) : f g' = f g := by
  rw [← hf g', h, hf]

@[simp] theorem dependencies_skeleton (g : Graph α) (id : ComponentId) :
    g.skeleton.dependencies id = g.dependencies id := by
  simp [dependencies, List.filter_map, Function.comp_def]

@[simp] theorem arcs_skeleton (g : Graph α) : g.skeleton.arcs = g.arcs := by
  simp only [arcs, dependencies_skeleton]
  rfl

theorem hasEdge_weightless (g : Graph α) : g.weightless.hasEdge a b = g.hasEdge a b := by
  simp [hasEdge, weightless, Function.comp_def]

theorem hasEdge_withoutLoops (g : Graph α) (hne : a ≠ b) :
    g.withoutLoops.hasEdge a b = g.hasEdge a b := by
  rw [hasEdge, withoutLoops, dependencyEdges, List.any_filter]
  simp only [Bool.and_comm (!_), Edge.joins_and_not_isSelfLoop hne]
  rfl

theorem weightBetween_withoutLoops (g : Graph α) (hne : a ≠ b) :
    g.withoutLoops.weightBetween a b = g.weightBetween a b := by
  rw [weightBetween, withoutLoops, dependencyEdges, List.filter_filter]
  simp only [Edge.joins_and_not_isSelfLoop hne]
  rfl

/-! ## Metrics -/

theorem adjacency_skeleton (g : Graph α) : g.skeleton.adjacency = g.adjacency := by
  simp only [adjacency, dependencies_skeleton]
  rfl

variable [Scalar α]

theorem metricsOf_skeleton (g : Graph α) (id : ComponentId) (degree betweenness : α) :
    g.skeleton.metricsOf id degree betweenness = g.metricsOf id degree betweenness := by
  simp [metricsOf, List.filter_map, Function.comp_def]

/-- Metrics can be filled in before or after. -/
theorem skeleton_withMetrics (g : Graph α) : g.withMetrics.skeleton = g.skeleton.withMetrics := by
  simp only [withMetrics, adjacency_skeleton, metricsOf_skeleton]
  rfl

end Graph

/-- The skeleton of a built graph depends on the nodes that the records make and on the
    edges between distinct ones. -/
theorem GraphBuild.skeleton_ofSorted {α : Type} [Scalar α]
    {records records' : List ComponentRecord}
    (hnodes : List.Forall₂ ComponentRecord.SameNode records records')
    (hedges : (ofSorted records' : GraphBuild α).graph.dependencyEdges.map Edge.weightless =
      (ofSorted records : GraphBuild α).graph.dependencyEdges.map Edge.weightless) :
    (ofSorted records' : GraphBuild α).graph.skeleton =
      (ofSorted records : GraphBuild α).graph.skeleton := by
  have hbare : (bareGraph records' : Graph α).skeleton = (bareGraph records).skeleton :=
    congrArg₂ Graph.mk (components_bareGraph_of_sameNode hnodes) hedges
  rw [graph_ofSorted, graph_ofSorted, Graph.skeleton_withMetrics, hbare,
    ← Graph.skeleton_withMetrics]

/-! ## Intents -/

section Intents

variable {α β : Type}

/-- The labelled edge without its weight. -/
def LabelledEdge.weightless (e : LabelledEdge β) : LabelledEdge β :=
  { e with edge := e.edge.weightless }

theorem Graph.labelledEdges_skeleton (g : Graph α) (labels : List (ComponentId × β)) :
    g.skeleton.labelledEdges labels = (g.labelledEdges labels).map LabelledEdge.weightless := by
  rw [labelledEdges, labelledEdges, dependencyEdges_skeleton, List.filterMap_map,
    List.map_filterMap]
  apply List.filterMap_congr
  intro e _
  simp only [Function.comp_apply, Edge.source_weightless, Edge.target_weightless]
  cases labels.lookup e.source <;> cases labels.lookup e.target <;> rfl

variable [Scalar α]

namespace Separation

theorem domainPairs_weightless (crossing : List (LabelledEdge String)) :
    domainPairs (crossing.map LabelledEdge.weightless) = domainPairs crossing := by
  simp only [domainPairs, List.filter_map, List.map_map]
  rfl

theorem domainEvidence_weightless (crossing : List (LabelledEdge String)) (source target : String) :
    domainEvidence (crossing.map LabelledEdge.weightless) source target =
      domainEvidence crossing source target := by
  simp only [domainEvidence, List.filter_map, List.flatMap_map]
  rfl

theorem detect_skeleton (k : LayerClassifier) (weights : SeparationWeights α) (g : Graph α) :
    detect k weights g.skeleton = detect k weights g := by
  simp only [detect, Graph.labelledEdges_skeleton, List.filter_map, List.length_map,
    domainPairs_weightless, domainEvidence_weightless, List.map_map]
  rfl

end Separation

namespace Hiding

/-- The use of symbols without the weight of its edge. -/
def SymbolUse.weightless (u : SymbolUse) : SymbolUse :=
  { u with edge := u.edge.weightless }

omit [Scalar α] in
theorem symbolUses_skeleton (g : Graph α) :
    symbolUses g.skeleton = (symbolUses g).map SymbolUse.weightless := by
  rw [symbolUses, symbolUses, Graph.dependencyEdges_skeleton, List.filter_map,
    List.filterMap_map, List.map_filterMap]
  apply List.filterMap_congr
  intro e _
  simp only [Function.comp_apply, Edge.target_weightless, Option.map_map]
  rfl

theorem detect_skeleton (weights : HidingWeights α) (g : Graph α) :
    detect weights g.skeleton = detect weights g := by
  simp only [detect, symbolUses_skeleton, List.filter_map, List.length_map, List.map_map]
  rfl

end Hiding

namespace Inversion

/-- The descent without the weight of its edge. -/
def Descent.weightless (d : Descent) : Descent :=
  { d with edge := d.edge.weightless }

omit [Scalar α] in
theorem descents_skeleton (k : LayerClassifier) (g : Graph α) :
    descents k g.skeleton = (descents k g).map Descent.weightless := by
  rw [descents, descents, Graph.labelledEdges_skeleton, List.filter_map, List.filterMap_map,
    List.map_filterMap]
  apply List.filterMap_congr
  intro e _
  simp only [Function.comp_apply, Option.map_map]
  rfl

theorem detect_skeleton (k : LayerClassifier) (weights : InversionWeights α) (g : Graph α) :
    detect k weights g.skeleton = detect k weights g := by
  simp only [detect, descents_skeleton, List.filter_map, List.length_map, List.map_map]
  rfl

end Inversion

end Intents

/-! ## Styles and findings -/

section Styles

variable {α : Type} [Scalar α]

theorem StyleTable.detect_skeleton (t : StyleTable) (config : StyleConfig α) (g : Graph α)
    (intents : List (IntentResult α)) :
    t.detect config g.skeleton intents = t.detect config g intents := by
  have hjudge (roles : NameMap Role) : t.judge g.skeleton roles = t.judge g roles := by
    rw [judge, Graph.arcs_skeleton]
    rfl
  simp only [detect, hjudge]
  rfl

omit [Scalar α] in
/-- Mutual dependencies are between distinct components. -/
theorem AntiPattern.mutualPairs_skeleton (g : Graph α) :
    mutualPairs g.skeleton = mutualPairs g := by
  rw [mutualPairs, mutualPairs, Graph.arcs_skeleton]
  apply List.filter_congr
  rintro ⟨a, b⟩ _
  dsimp only
  by_cases hlt : a < b
  · have hne : b ≠ a := (ne_of_lt hlt).symm
    rw [Graph.skeleton, Graph.hasEdge_weightless, Graph.hasEdge_withoutLoops g hne]
  · simp [hlt]

end Styles

/-! ## Reports -/

namespace Report

variable {α : Type}

/-- All scores of the two reports are the same. -/
structure AssessedAlike (r r' : Report α) : Prop where
  components : r'.graph.components = r.graph.components
  intents : r'.intents = r.intents
  health : r'.overallHealthScore = r.overallHealthScore
  styles : r'.styles = r.styles
  classification : r'.classification = r.classification

/-- Graphs with one skeleton are assessed alike. -/
theorem Stages.assessedAlike [Scalar α] {config : Config α}
    {records records' : List ComponentRecord} {r r' : Report α} (h : r.Stages config records)
    (h' : r'.Stages config records') (hskeleton : r'.graph.skeleton = r.graph.skeleton) :
    r.AssessedAlike r' := by
  have hintents : r'.intents = r.intents := by
    obtain ⟨k, hk, hr⟩ := h.intents
    obtain ⟨k', hk', hr'⟩ := h'.intents
    cases Except.ok.inj (hk.symm.trans hk')
    rw [hr, hr', Graph.eq_of_skeleton_eq (Separation.detect_skeleton k _) hskeleton,
      Graph.eq_of_skeleton_eq (Hiding.detect_skeleton _) hskeleton,
      Graph.eq_of_skeleton_eq (Inversion.detect_skeleton k _) hskeleton]
  have hstyles : r'.styles = r.styles := by
    rw [h.styles, h'.styles, hintents]
    apply List.map_congr_left
    intro t _
    exact Graph.eq_of_skeleton_eq (f := fun g => t.detect config.styles g r.intents)
      (fun g => t.detect_skeleton config.styles g r.intents) hskeleton
  exact
    { components := Graph.eq_of_skeleton_eq (f := Graph.components) (fun _ => rfl) hskeleton
      intents := hintents
      health := by rw [h.health, h'.health, hintents]
      styles := hstyles
      classification := by rw [h.classification, h'.classification, hstyles] }

end Report

/-- What the reports on records and on their revision have in common, the analysis of both
    ensures. Which revisions are meant may depend on the first report. -/
theorem Pipeline.standard_ensures_revised {α : Type} [Scalar α] {config : Config α}
    (hconfig : config.validate = .ok ())
    {R : Report α → ComponentRecord → ComponentRecord → Prop} {P : Report α → Report α → Prop}
    (hR : ∀ report r r', R report r r' → r.SameNode r')
    (h : ∀ sorted sorted' report report' records records',
      report.Stages config records → report'.Stages config records' →
      report.graph = (GraphBuild.ofSorted sorted).graph →
      report'.graph = (GraphBuild.ofSorted sorted').graph →
      List.Forall₂ (R report) sorted sorted' → P report report') :
    ∃ p, standard config = .ok p ∧
      ∀ records, Accepted records → ∃ report, p.analyze records = .ok report ∧
        ∀ records', List.Forall₂ (R report) records records' →
          ∃ report', p.analyze records' = .ok report' ∧ P report report' := by
  obtain ⟨p, hp, hrun⟩ := standard_of_validate hconfig
  refine ⟨p, hp, ?_⟩
  intro records haccepted
  have hreport := analyze_of_ok hrun (GraphBuild.ofRecords_eq_ok_iff.2 ⟨haccepted, rfl⟩)
  refine ⟨_, hreport, ?_⟩
  intro records' hrevised
  have haccepted' := haccepted.of_sameNode (hrevised.imp (hR _))
  have hreport' := analyze_of_ok hrun (GraphBuild.ofRecords_eq_ok_iff.2 ⟨haccepted', rfl⟩)
  exact ⟨_, hreport', h _ _ _ _ _ _ (stages_of_analyze hp hreport) (stages_of_analyze hp hreport')
    rfl rfl (forall₂_sortRecords (hR _) haccepted hrevised)⟩

end ArchAudit
