-- SUMMARY: Repeating references changes weights and how severe cycles and mutual dependencies are, and nothing else that is reported.
import ArchAudit.Proofs.Findings
import ArchAudit.Proofs.PrunedReferences
import ArchAudit.Proofs.Skeleton

/-!
# Repeated references

Which edges a graph has, and which symbols they carry, depends on what is referred to and
not on how often. How often decides the weights alone. They enter into the severity of
cycles and of mutual dependencies, and through it into the urgency of advice on these.
-/

namespace ArchAudit

/-- The record with further copies of references that it has. -/
structure ComponentRecord.Repeating (r r' : ComponentRecord) : Prop where
  otherwise : r.SameNode r'
  kept : r.references.Sublist r'.references
  copies : r'.references ⊆ r.references

open ComponentRecord (Repeating)

theorem ComponentRecord.Repeating.pruned {r r' : ComponentRecord} (h : r.Repeating r') :
    r'.Pruned r :=
  ⟨h.kept, h.otherwise.symm⟩

/-! ## Edges -/

/-- What an edge gathers depends on how often edges occur in its weight only. -/
theorem Edge.Gathers.exists_of_mem_iff {l l' : List Edge} (h : ∀ f, f ∈ l ↔ f ∈ l') {e : Edge}
    (he : e.Gathers l) : ∃ e' : Edge, e'.Gathers l' ∧ e'.weightless = e.weightless := by
  refine ⟨{ e with weight := weightAt e.key l' }, ⟨?_, rfl, ?_⟩, rfl⟩
  · obtain ⟨f, hf, hkey⟩ := List.mem_map.1 he.occurs
    exact List.mem_map.2 ⟨f, (h f).1 hf, hkey⟩
  · intro x
    apply (he.symbols x).trans
    simp only [CarriesAt, h]
    rfl

theorem weightless_collapseEdges_subset {l l' : List Edge} (h : ∀ e, e ∈ l ↔ e ∈ l') :
    (collapseEdges l).map Edge.weightless ⊆ (collapseEdges l').map Edge.weightless := by
  intro e he
  obtain ⟨f, hf, rfl⟩ := List.mem_map.1 he
  obtain ⟨f', hf', heq⟩ := (mem_collapseEdges.1 hf).exists_of_mem_iff h
  exact List.mem_map.2 ⟨f', mem_collapseEdges.2 hf', heq⟩

/-- Collapsing depends on the order and number of the edges in the weights only. -/
theorem map_weightless_collapseEdges {l l' : List Edge} (h : ∀ e, e ∈ l ↔ e ∈ l') :
    (collapseEdges l').map Edge.weightless = (collapseEdges l).map Edge.weightless := by
  have hsorted (l : List Edge) : ((collapseEdges l).map Edge.weightless).Pairwise Edge.Before :=
    List.pairwise_map.2 (pairwise_collapseEdges l)
  apply Edge.eq_of_mem_iff (hsorted l') (hsorted l)
  intro e
  constructor
  · intro he
    exact weightless_collapseEdges_subset (fun f => (h f).symm) he
  · intro he
    exact weightless_collapseEdges_subset h he

theorem mem_mentions_of_repeating {records records' : List ComponentRecord}
    (h : List.Forall₂ Repeating records records') (m : Mention) :
    m ∈ mentions records ↔ m ∈ mentions records' := by
  induction h with
  | nil => rfl
  | @cons r r' _ _ hr _ ih =>
    have hown (reference : Reference) :
        reference ∈ r.references ↔ reference ∈ r'.references :=
      ⟨fun hmem => hr.kept.subset hmem, fun hmem => hr.copies hmem⟩
    simp only [mentions_cons, hr.otherwise.componentId_eq, List.mem_append, List.mem_map, hown, ih]

namespace GraphBuild

variable {α : Type} [Scalar α] {records records' : List ComponentRecord}

theorem edges_of_repeating (h : List.Forall₂ Repeating records records') :
    (ofSorted records' : GraphBuild α).graph.edges.map Edge.weightless =
      (ofSorted records : GraphBuild α).graph.edges.map Edge.weightless := by
  rw [edges_ofSorted, edges_ofSorted, addresses_of_sameNode (h.imp fun _ _ hr => hr.otherwise)]
  apply map_weightless_collapseEdges
  intro e
  simp only [List.mem_filterMap, mem_mentions_of_repeating h]

/-- The weights of the edges that both graphs have do not get less. -/
theorem weight_le_of_repeating (h : List.Forall₂ Repeating records records') {e e' : Edge}
    (he : e ∈ (ofSorted records : GraphBuild α).graph.edges)
    (he' : e' ∈ (ofSorted records' : GraphBuild α).graph.edges) (hkey : e'.key = e.key) :
    e.weight ≤ e'.weight := by
  have hsublist := mentions_sublist (h.imp fun _ _ hr => hr.pruned).flip
  rw [(mem_edges_ofSorted.1 he).weight, (mem_edges_ofSorted.1 he').weight,
    Mention.weightAt_filterMap_edge?, Mention.weightAt_filterMap_edge?, hkey,
    addresses_of_sameNode (h.imp fun _ _ hr => hr.otherwise)]
  exact hsublist.countP_le

end GraphBuild

/-! ## Cycles -/

namespace Graph

variable {α : Type}

theorem reachable_weightless (g : Graph α) : g.weightless.reachable = g.reachable := by
  have hsuccessors (id : ComponentId) : g.weightless.successors id = g.successors id := by
    simp [successors, outgoing, weightless, List.filter_map, Function.comp_def]
  simp only [reachable, successorTable, hsuccessors]
  rfl

/-- Weights do not decide which components are on a cycle. -/
theorem map_members_cycles_weightless (g : Graph α) :
    g.weightless.cycles.map (·.members) = g.cycles.map (·.members) := by
  rw [cycles, cycles, List.map_filterMap, List.map_filterMap]
  apply List.filterMap_congr
  intro id _
  dsimp only
  rw [reachable_weightless, hasEdge_weightless]
  split <;> rfl

end Graph

/-! ## Findings -/

/-- The findings are the same, but those of cycles and mutual dependencies may differ in
    severity and description. -/
structure Violation.SameFinding {α : Type} (v v' : Violation α) : Prop where
  id : v'.id = v.id
  kind : v'.kind = v.kind
  participants : v'.participants = v.participants
  style : v'.style = v.style
  otherwise : v.kind ≠ .cycle → v.kind ≠ .bidirectionalCoupling → v' = v

namespace Violation.SameFinding

variable {α : Type} {vs vs' : List (Violation α)}

theorem refl (v : Violation α) : v.SameFinding v :=
  ⟨rfl, rfl, rfl, rfl, fun _ _ => rfl⟩

theorem forall₂_refl (vs : List (Violation α)) : List.Forall₂ SameFinding vs vs :=
  List.forall₂_same.2 fun v _ => refl v

/-- The findings of one kind correspond too. -/
theorem filter_kind (h : List.Forall₂ SameFinding vs vs') (kind : ViolationKind) :
    List.Forall₂ SameFinding (vs.filter (·.kind = kind)) (vs'.filter (·.kind = kind)) := by
  apply List.rel_filter _ h
  intro v v' hv
  simp only [hv.kind]

/-- Findings of a kind whose severity counts no references are equal. -/
theorem filter_kind_eq (h : List.Forall₂ SameFinding vs vs') {kind : ViolationKind}
    (hcycle : kind ≠ .cycle) (hmutual : kind ≠ .bidirectionalCoupling) :
    vs'.filter (·.kind = kind) = vs.filter (·.kind = kind) := by
  induction h with
  | nil => rfl
  | @cons v v' _ _ hv _ ih =>
    rw [List.filter_cons, List.filter_cons, ih, hv.kind]
    by_cases hkind : v.kind = kind
    · subst hkind
      rw [hv.otherwise hcycle hmutual]
    · simp [hkind]

end Violation.SameFinding

namespace AntiPattern

open Violation (SameFinding)

variable {α : Type} [Scalar α]

theorem sameFinding_cycles {g g' : Graph α} (h : g'.weightless = g.weightless) :
    List.Forall₂ SameFinding (cycles g) (cycles g') := by
  have hmembers : g.cycles.map (·.members) = g'.cycles.map (·.members) := by
    rw [← g.map_members_cycles_weightless, ← h, g'.map_members_cycles_weightless]
  rw [← List.forall₂_eq_eq_eq, List.forall₂_map_left_iff, List.forall₂_map_right_iff] at hmembers
  apply forall₂_mapIdx _ hmembers
  intro i c c' hc
  exact ⟨rfl, rfl, hc.symm, rfl, fun hcycle => absurd rfl hcycle⟩

theorem sameFinding_bidirectionalCoupling {g g' : Graph α} (h : g'.skeleton = g.skeleton) :
    List.Forall₂ SameFinding (bidirectionalCoupling g) (bidirectionalCoupling g') := by
  have hpairs : mutualPairs g = mutualPairs g' :=
    (Graph.eq_of_skeleton_eq mutualPairs_skeleton h).symm
  rw [← List.forall₂_eq_eq_eq] at hpairs
  apply forall₂_mapIdx _ hpairs
  rintro i ⟨a, b⟩ _ rfl
  exact ⟨rfl, rfl, rfl, rfl, fun _ hmutual => absurd rfl hmutual⟩

theorem sameFinding_detect {config : AntiPatternConfig α} {g g' : Graph α}
    {styles : List (StyleResult α)} {classification : Classification}
    (h : g'.weightless = g.weightless) (hskeleton : g'.skeleton = g.skeleton) :
    List.Forall₂ SameFinding (detect config g styles classification)
      (detect config g' styles classification) := by
  have hcomponents : g'.components = g.components := congrArg (·.components) h
  rw [detect, detect, tightCoupling_of_components hcomponents,
    godComponents_of_components hcomponents]
  apply List.rel_append _ (SameFinding.forall₂_refl _)
  apply List.rel_append _ (SameFinding.forall₂_refl _)
  apply List.rel_append _ (sameFinding_bidirectionalCoupling hskeleton)
  exact List.rel_append (sameFinding_cycles h) (SameFinding.forall₂_refl _)

end AntiPattern

/-! ## Advice -/

namespace Recommendation

open Violation (SameFinding)

/-- The advice is the same but for how urgent it is about cycles and mutual
    dependencies. -/
structure SameAdvice (a a' : Recommendation) : Prop where
  text : a'.text = a.text
  relatedViolations : a'.relatedViolations = a.relatedViolations
  category : a'.category = a.category
  affectedComponents : a'.affectedComponents = a.affectedComponents
  otherwise : a.category ≠ .breakCycle → a.category ≠ .decoupleBidirectional → a' = a

theorem SameAdvice.refl (a : Recommendation) : a.SameAdvice a :=
  ⟨rfl, rfl, rfl, rfl, fun _ _ => rfl⟩

variable {α : Type} {vs vs' : List (Violation α)}

theorem sameAdvice_ofGroup (h : List.Forall₂ SameFinding vs vs') (kind : ViolationKind)
    (heq : kind ≠ .cycle → kind ≠ .bidirectionalCoupling → vs' = vs) :
    (ofGroup kind vs).SameAdvice (ofGroup kind vs') := by
  have hids : vs'.map (·.id) = vs.map (·.id) := map_eq_of_forall₂ (fun _ _ hv => hv.id) h
  have hparticipants : vs'.map (·.participants) = vs.map (·.participants) :=
    map_eq_of_forall₂ (fun _ _ hv => hv.participants) h
  have haffected : vs'.flatMap (·.participants) = vs.flatMap (·.participants) := by
    rw [List.flatMap_def, List.flatMap_def, hparticipants]
  refine ⟨?_, hids, rfl, ?_, ?_⟩
  · simp only [ofGroup, haffected, h.length_eq]
  · simp only [ofGroup, haffected]
  · intro hcycle hmutual
    rw [heq]
    · rintro rfl
      exact hcycle rfl
    · rintro rfl
      exact hmutual rfl

theorem sameAdvice_ofViolations (h : List.Forall₂ SameFinding vs vs') :
    List.Forall₂ SameAdvice (ofViolations vs) (ofViolations vs') := by
  apply List.rel_filterMap _ (List.forall₂_same.2 fun _ _ => rfl)
  rintro kind _ rfl
  have hgroup := SameFinding.filter_kind h kind
  have hempty : (vs'.filter (·.kind = kind)).isEmpty = (vs.filter (·.kind = kind)).isEmpty := by
    rw [Bool.eq_iff_iff, List.isEmpty_iff_length_eq_zero, List.isEmpty_iff_length_eq_zero,
      hgroup.length_eq]
  dsimp only
  rw [hempty]
  split
  · exact .none
  · exact .some (sameAdvice_ofGroup hgroup kind (SameFinding.filter_kind_eq h))

/-- All advice is the same up to its order and urgency. -/
theorem sameAdvice_recommend [Scalar α] (threshold : α) (h : List.Forall₂ SameFinding vs vs')
    (intents : List (IntentResult α)) :
    ∃ advice, List.Forall₂ SameAdvice (recommend threshold vs intents) advice ∧
      advice.Perm (recommend threshold vs' intents) := by
  have hunsorted := List.rel_append (sameAdvice_ofViolations h)
    (List.forall₂_same.2 fun a (_ : a ∈ intents.filterMap (ofIntent? threshold)) =>
      SameAdvice.refl a)
  obtain ⟨advice, hadvice, hperm⟩ :=
    List.perm_comp_forall₂ (List.mergeSort_perm _ precedes) hunsorted
  exact ⟨advice, hadvice, hperm.trans (List.mergeSort_perm _ precedes).symm⟩

end Recommendation

/-! ## Reports -/

/-- The reports differ at most in the weights of edges, in how severe cycles and mutual
    dependencies are and how urgent and where the advice on them is, and in diagnostics. -/
structure Report.SameButWeights {α : Type} (r r' : Report α) : Prop extends r.AssessedAlike r' where
  edges : r'.graph.edges.map Edge.weightless = r.graph.edges.map Edge.weightless
  weights : ∀ e ∈ r.graph.edges, ∀ e' ∈ r'.graph.edges, e'.key = e.key → e.weight ≤ e'.weight
  violations : List.Forall₂ Violation.SameFinding r.violations r'.violations
  recommendations : ∃ advice, List.Forall₂ Recommendation.SameAdvice r.recommendations advice ∧
    advice.Perm r'.recommendations

theorem Report.Stages.sameFindings {α : Type} [Scalar α] {config : Config α}
    {records records' : List ComponentRecord} {r r' : Report α} (h : r.Stages config records)
    (h' : r'.Stages config records') (halike : r.AssessedAlike r')
    (hweightless : r'.graph.weightless = r.graph.weightless)
    (hskeleton : r'.graph.skeleton = r.graph.skeleton) :
    List.Forall₂ Violation.SameFinding r.violations r'.violations := by
  rw [h.violations, h'.violations, halike.styles, halike.classification]
  exact List.rel_append (AntiPattern.sameFinding_detect hweightless hskeleton)
    (Violation.SameFinding.forall₂_refl _)

namespace Pipeline

/-- Adding copies of references that records have changes neither the components and their
    metrics, nor which edges there are and what symbols they carry, nor any score or
    style. The same findings are listed in the same order, and only those of cycles and
    mutual dependencies may differ in severity and description. -/
theorem analyze_counts_repeated_references {α : Type} [Scalar α] {config : Config α}
    (hconfig : config.validate = .ok ()) :
    ∃ p, standard config = .ok p ∧
      ∀ records, Accepted records → ∃ report, p.analyze records = .ok report ∧
        ∀ records', List.Forall₂ Repeating records records' →
          ∃ report', p.analyze records' = .ok report' ∧ report.SameButWeights report' := by
  apply standard_ensures_revised hconfig (R := fun _ => Repeating)
  · intro _ _ _ hr
    exact hr.otherwise
  · intro sorted sorted' report report' _ _ h h' hgraph hgraph' hsorted
    have hnodes := hsorted.imp fun _ _ hr => hr.otherwise
    have hedges : report'.graph.edges.map Edge.weightless =
        report.graph.edges.map Edge.weightless := by
      rw [hgraph, hgraph', GraphBuild.edges_of_repeating hsorted]
    have hdependencies : report'.graph.dependencyEdges.map Edge.weightless =
        report.graph.dependencyEdges.map Edge.weightless := by
      rw [← Graph.dependencyEdges_weightless, ← Graph.dependencyEdges_weightless,
        Graph.dependencyEdges, Graph.weightless, hedges]
      rfl
    have hskeleton : report'.graph.skeleton = report.graph.skeleton := by
      rw [hgraph, hgraph'] at hdependencies ⊢
      exact GraphBuild.skeleton_ofSorted hnodes hdependencies
    have halike := h.assessedAlike h' hskeleton
    have hfindings := h.sameFindings h' halike (congrArg₂ Graph.mk halike.components hedges) hskeleton
    refine ⟨halike, hedges, ?_, hfindings, ?_⟩
    · rw [hgraph, hgraph']
      intro e he e' he'
      exact GraphBuild.weight_le_of_repeating hsorted he he'
    · rw [h.recommendations, h'.recommendations, halike.intents]
      exact Recommendation.sameAdvice_recommend _ hfindings _

/-- The eroded system when its lowest layer refers to the highest twice. -/
def repeatedRecords : List ComponentRecord :=
  [Report.importer "db" ["ui", "ui"], Report.importer "service" ["db", "lost"],
   Report.importer "ui" ["db", "service"], Report.importer "web" ["service"]]

theorem repeating_repeatedRecords :
    List.Forall₂ Repeating Report.erodedRecords repeatedRecords := by
  have hsame (r : ComponentRecord) : r.Repeating r := ⟨rfl, .refl _, List.Subset.refl _⟩
  refine .cons ⟨rfl, (List.nil_sublist _).cons_cons _, by decide⟩
    (.cons (hsame _) (.cons (hsame _) (.cons (hsame _) .nil)))

/-- The mutual dependency of the lowest and the highest layer is counted once more and
    stays the one finding that it was. -/
theorem analyze_counts_repeated_references_repeatedRecords :
    (Config.standard Float).validate = .ok () ∧ Accepted Report.erodedRecords ∧
    List.Forall₂ Repeating Report.erodedRecords repeatedRecords ∧
    ∃ p, standard (Config.standard Float) = .ok p ∧
      ∃ report report', p.analyze Report.erodedRecords = .ok report ∧
        p.analyze repeatedRecords = .ok report' ∧
        report.graph.weightBetween "db" "ui" = 1 ∧ report'.graph.weightBetween "db" "ui" = 2 ∧
        report.SameButWeights report' := by
  obtain ⟨p, hp, hanalyze⟩ := analyze_counts_repeated_references Config.validate_standard
  obtain ⟨report, hreport, hrevised⟩ := hanalyze _ Report.accepted_erodedRecords
  obtain ⟨report', hreport', hsame⟩ := hrevised _ repeating_repeatedRecords
  have hbuild := (stages_of_analyze hp hreport').build_of_ascending (by decide) (by decide)
  have hgraph' : (GraphBuild.ofSorted repeatedRecords).graph = report'.graph :=
    congrArg GraphBuild.graph hbuild
  refine ⟨Config.validate_standard, Report.accepted_erodedRecords, repeating_repeatedRecords, p, hp,
    report, report', hreport, hreport', ?_, ?_, hsame⟩
  · rw [(stages_of_analyze hp hreport).graph_eq_erodedGraph]
    decide +kernel
  · rw [← hgraph']
    decide +kernel

end Pipeline

end ArchAudit
