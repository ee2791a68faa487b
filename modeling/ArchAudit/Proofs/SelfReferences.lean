-- SUMMARY: References of components to themselves show in cycles and in nothing else that is reported.
import ArchAudit.Proofs.Advice
import ArchAudit.Proofs.Findings
import ArchAudit.Proofs.Skeleton

/-!
# References of components to themselves

A reference that means the component it stands in makes a loop. Loops are edges of the
graph and cycles of their own, but no score, style or other finding takes notice of them.
-/

namespace ArchAudit

/-- The record with further references at its end, all of which mean the component
    itself. -/
structure ComponentRecord.SelfReferring (addresses : List Address) (r r' : ComponentRecord) :
    Prop where
  otherwise : r.SameNode r'
  references : ∃ extra, r'.references = r.references ++ extra ∧
    ∀ reference ∈ extra,
      ((Mention.mk r.componentId reference).resolve addresses).target? = some r.componentId

open ComponentRecord (SelfReferring)

/-! ## Graphs -/

theorem Mention.isSelfLoop_of_edge? {addresses : List Address} {m : Mention} {e : Edge}
    (htarget : (m.resolve addresses).target? = some m.source) (he : m.edge? addresses = some e) :
    e.isSelfLoop = true := by
  rw [edge?, htarget] at he
  cases he
  exact beq_self_eq_true m.source

/-- The references that lead to other components are the same. -/
theorem filter_edges_of_selfReferring {addresses : List Address}
    {records records' : List ComponentRecord}
    (h : List.Forall₂ (SelfReferring addresses) records records') :
    ((mentions records').filterMap (·.edge? addresses)).filter (!·.isSelfLoop) =
      ((mentions records).filterMap (·.edge? addresses)).filter (!·.isSelfLoop) := by
  induction h with
  | nil => rfl
  | @cons r r' _ _ hr _ ih =>
    obtain ⟨extra, hreferences, hself⟩ := hr.references
    have hextra : ((extra.map (Mention.mk r.componentId)).filterMap (·.edge? addresses)).filter
        (!·.isSelfLoop) = [] := by
      rw [List.filter_eq_nil_iff]
      intro e he
      obtain ⟨m, hm, hedge⟩ := List.mem_filterMap.1 he
      obtain ⟨reference, hreference, rfl⟩ := List.mem_map.1 hm
      simp [Mention.isSelfLoop_of_edge? (hself reference hreference) hedge]
    simp only [mentions_cons, hr.otherwise.componentId_eq, hreferences, List.map_append,
      List.filterMap_append, List.filter_append, hextra, List.append_nil, ih]

theorem GraphBuild.dependencyEdges_of_selfReferring {α : Type} [Scalar α]
    {records records' : List ComponentRecord}
    (h : List.Forall₂ (SelfReferring (ofSorted records : GraphBuild α).graph.addresses)
      records records') :
    (ofSorted records' : GraphBuild α).graph.dependencyEdges =
      (ofSorted records : GraphBuild α).graph.dependencyEdges := by
  have hkeys : ∀ e f : Edge, e.key = f.key → (!e.isSelfLoop) = !f.isSelfLoop := by
    intro e f hkey
    simp only [Edge.key, Prod.mk.injEq] at hkey
    rw [Edge.isSelfLoop, Edge.isSelfLoop, hkey.1, hkey.2.1]
  rw [Graph.dependencyEdges, Graph.dependencyEdges, edges_ofSorted, edges_ofSorted,
    addresses_of_sameNode (h.imp fun _ _ hr => hr.otherwise), filter_collapseEdges hkeys,
    filter_collapseEdges hkeys, filter_edges_of_selfReferring h]

/-! ## Findings -/

namespace AntiPattern

variable {α : Type} [Scalar α]

theorem bidirectionalCoupling_withoutLoops (g : Graph α) :
    bidirectionalCoupling g.withoutLoops = bidirectionalCoupling g := by
  have hpairs : mutualPairs g.withoutLoops = mutualPairs g :=
    Graph.eq_of_skeleton_eq mutualPairs_skeleton g.skeleton_withoutLoops
  have hsame : List.Forall₂ (fun p q => p = q ∧ p.1 ≠ p.2) (mutualPairs g) (mutualPairs g) := by
    rw [List.forall₂_same]
    intro p hp
    have hlt : p.1 < p.2 := by
      simp only [mutualPairs, List.mem_filter, Bool.and_eq_true, decide_eq_true_iff] at hp
      exact hp.2.1
    exact ⟨rfl, ne_of_lt hlt⟩
  rw [bidirectionalCoupling, bidirectionalCoupling, hpairs, ← List.forall₂_eq_eq_eq]
  apply forall₂_mapIdx _ hsame
  rintro i ⟨a, b⟩ _ ⟨rfl, hne⟩
  dsimp only
  rw [g.weightBetween_withoutLoops hne, g.weightBetween_withoutLoops hne.symm]

/-- Findings other than cycles take no notice of loops. -/
theorem filter_detect_of_withoutLoops {config : AntiPatternConfig α} {g g' : Graph α}
    {styles : List (StyleResult α)} {classification : Classification}
    (h : g'.withoutLoops = g.withoutLoops) :
    (detect config g' styles classification).filter (·.kind ≠ .cycle) =
      (detect config g styles classification).filter (·.kind ≠ .cycle) := by
  have hcomponents : g'.components = g.components := congrArg (·.components) h
  have hmutual : bidirectionalCoupling g' = bidirectionalCoupling g := by
    rw [← bidirectionalCoupling_withoutLoops g', h, bidirectionalCoupling_withoutLoops]
  apply (filter_detect fun kind => kind ≠ .cycle).trans
  apply Eq.trans _ (filter_detect fun kind => kind ≠ .cycle).symm
  simp [blocks, hmutual, tightCoupling_of_components hcomponents,
    godComponents_of_components hcomponents]

end AntiPattern

/-! ## Reports -/

/-- The reports differ at most in loops, in cycles and what is advised about them, and in
    diagnostics. -/
structure Report.SameButLoops {α : Type} (r r' : Report α) : Prop extends r.AssessedAlike r' where
  dependencyEdges : r'.graph.dependencyEdges = r.graph.dependencyEdges
  violations : r'.violations.filter (·.kind ≠ .cycle) = r.violations.filter (·.kind ≠ .cycle)
  recommendations : r'.recommendations.filter (·.category ≠ .breakCycle) =
    r.recommendations.filter (·.category ≠ .breakCycle)

theorem Report.Stages.sameButLoops {α : Type} [Scalar α] {config : Config α}
    {records records' : List ComponentRecord} {r r' : Report α} (h : r.Stages config records)
    (h' : r'.Stages config records') (hskeleton : r'.graph.skeleton = r.graph.skeleton)
    (hedges : r'.graph.dependencyEdges = r.graph.dependencyEdges) : r.SameButLoops r' := by
  have halike := h.assessedAlike h' hskeleton
  have hloops : r'.graph.withoutLoops = r.graph.withoutLoops :=
    congrArg₂ Graph.mk halike.components hedges
  have hviolations : r'.violations.filter (·.kind ≠ .cycle) =
      r.violations.filter (·.kind ≠ .cycle) := by
    rw [h.violations, h'.violations, halike.styles, halike.classification, List.filter_append,
      List.filter_append, AntiPattern.filter_detect_of_withoutLoops hloops]
  refine ⟨halike, hedges, hviolations, ?_⟩
  let threshold := config.intents.gapThreshold
  rw [h.recommendations, h'.recommendations, halike.intents]
  calc (Recommendation.recommend threshold r'.violations r.intents).filter
        (·.category ≠ .breakCycle)
    _ = Recommendation.recommend threshold (r'.violations.filter (·.kind ≠ .cycle)) r.intents :=
      Recommendation.filter_recommend threshold .cycle r'.violations r.intents
    _ = Recommendation.recommend threshold (r.violations.filter (·.kind ≠ .cycle)) r.intents := by
      rw [hviolations]
    _ = (Recommendation.recommend threshold r.violations r.intents).filter
        (·.category ≠ .breakCycle) :=
      (Recommendation.filter_recommend threshold .cycle r.violations r.intents).symm

namespace Pipeline

/-- Appending references of components to themselves changes neither the components and
    their metrics, nor the edges between distinct components, nor any score, style,
    finding other than a cycle or advice on anything else. -/
theorem analyze_ignores_self_references {α : Type} [Scalar α] {config : Config α}
    (hconfig : config.validate = .ok ()) :
    ∃ p, standard config = .ok p ∧
      ∀ records, Accepted records → ∃ report, p.analyze records = .ok report ∧
        ∀ records', List.Forall₂ (SelfReferring report.graph.addresses) records records' →
          ∃ report', p.analyze records' = .ok report' ∧ report.SameButLoops report' := by
  apply standard_ensures_revised hconfig (R := fun report => SelfReferring report.graph.addresses)
  · intro _ _ _ hr
    exact hr.otherwise
  · intro sorted sorted' report report' _ _ h h' hgraph hgraph' hsorted
    rw [hgraph] at hsorted
    have hedges := GraphBuild.dependencyEdges_of_selfReferring hsorted
    have hskeleton := GraphBuild.skeleton_ofSorted (hsorted.imp fun _ _ hr => hr.otherwise)
      (congrArg (List.map Edge.weightless) hedges)
    apply h.sameButLoops h'
    · rw [hgraph, hgraph', hskeleton]
    · rw [hgraph, hgraph', hedges]

/-- The eroded system when its lowest layer refers to itself as well. -/
def loopedRecords : List ComponentRecord :=
  [Report.importer "db" ["ui", "db"], Report.importer "service" ["db", "lost"],
   Report.importer "ui" ["db", "service"], Report.importer "web" ["service"]]

theorem selfReferring_loopedRecords :
    List.Forall₂ (SelfReferring Report.erodedGraph.addresses) Report.erodedRecords loopedRecords := by
  have hself : (Resolution.resolve Report.erodedGraph.addresses "db" "db").target? = some "db" := by
    rw [Report.erodedGraph, GraphBuild.addresses_ofSorted]
    decide +kernel
  have hsame (r : ComponentRecord) : r.SelfReferring Report.erodedGraph.addresses r :=
    ⟨rfl, [], (List.append_nil _).symm, by simp⟩
  refine .cons ⟨rfl, [⟨"db", .imports, []⟩], rfl, ?_⟩ (.cons (hsame _) (.cons (hsame _)
    (.cons (hsame _) .nil)))
  intro reference hreference
  cases List.mem_singleton.1 hreference
  exact hself

/-- The lowest layer now depends on itself, and its dependency on the highest is judged as
    before. -/
theorem analyze_ignores_self_references_loopedRecords :
    (Config.standard Float).validate = .ok () ∧ Accepted Report.erodedRecords ∧
    ∃ p, standard (Config.standard Float) = .ok p ∧
      ∃ report report', p.analyze Report.erodedRecords = .ok report ∧
        p.analyze loopedRecords = .ok report' ∧
        List.Forall₂ (SelfReferring report.graph.addresses) Report.erodedRecords loopedRecords ∧
        report.graph.hasEdge "db" "db" = false ∧ report'.graph.hasEdge "db" "db" = true ∧
        report.SameButLoops report' := by
  obtain ⟨p, hp, hanalyze⟩ := analyze_ignores_self_references Config.validate_standard
  obtain ⟨report, hreport, hrevised⟩ := hanalyze _ Report.accepted_erodedRecords
  have hgraph := (stages_of_analyze hp hreport).graph_eq_erodedGraph
  have hlooped : List.Forall₂ (SelfReferring report.graph.addresses) Report.erodedRecords
      loopedRecords := by
    rw [hgraph]
    exact selfReferring_loopedRecords
  obtain ⟨report', hreport', hsame⟩ := hrevised _ hlooped
  have hbuild := (stages_of_analyze hp hreport').build_of_ascending (by decide) (by decide)
  have hgraph' : (GraphBuild.ofSorted loopedRecords).graph = report'.graph :=
    congrArg GraphBuild.graph hbuild
  refine ⟨Config.validate_standard, Report.accepted_erodedRecords, p, hp, report, report', hreport,
    hreport', hlooped, ?_, ?_, hsame⟩
  · rw [hgraph]
    decide +kernel
  · rw [← hgraph']
    decide +kernel

end Pipeline

end ArchAudit
