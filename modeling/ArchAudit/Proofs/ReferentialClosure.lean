-- SUMMARY: Every component that a report names is a component of its graph.
import ArchAudit.Proofs.Advice
import ArchAudit.Proofs.RoleCycles
import ArchAudit.Proofs.StyleFindings

/-!
# Referential closure

The edges of a built graph join its components. Whatever a later stage names it takes from
the components, from their edges or from what an earlier stage named, so no stage brings
in a name that the graph does not have.
-/

namespace ArchAudit

theorem exists_of_mem_mapIdx {β γ : Type} {l : List β} {f : Nat → β → γ} {c : γ}
    (h : c ∈ l.mapIdx f) : ∃ i, ∃ b ∈ l, f i b = c := by
  obtain ⟨i, hi, rfl⟩ := List.mem_mapIdx.1 h
  exact ⟨i, _, List.getElem_mem hi, rfl⟩

theorem ascendingNames_flatMap_subset {β : Type} {l : List β} {f : β → List String}
    {ids : List String} (h : ∀ b ∈ l, f b ⊆ ids) : ascendingNames (l.flatMap f) ⊆ ids := by
  intro id hid
  obtain ⟨b, hb, hid⟩ := List.mem_flatMap.1 (mem_ascendingNames.1 hid)
  exact h b hb hid

-- ---------------------------------------------------------------------------
-- Graphs
-- ---------------------------------------------------------------------------

namespace Graph

variable {α : Type} {g : Graph α} {a b : ComponentId}

theorem singleton_subset_ids {c : Component α} (hc : c ∈ g.components) : [c.id] ⊆ g.ids :=
  List.cons_subset.2 ⟨List.mem_map_of_mem hc, List.nil_subset _⟩

theorem members_subset_ids {group : CycleGroup} (h : group ∈ g.cycles) : group.members ⊆ g.ids := by
  obtain ⟨a, _, rfl, _⟩ := mem_cycles_iff.1 h
  exact (g.mutuallyReachable_sublist a).subset

namespace WellFormed

theorem pair_subset_ids (h : g.WellFormed) (hjoins : g.Joins a b) : [a, b] ⊆ g.ids := by
  refine List.cons_subset.2 ⟨h.source_mem hjoins, ?_⟩
  exact List.cons_subset.2 ⟨h.target_mem hjoins, List.nil_subset _⟩

theorem arc_subset_ids (h : g.WellFormed) (harc : (a, b) ∈ g.arcs) : [a, b] ⊆ g.ids :=
  h.pair_subset_ids (h.mem_arcs.1 harc).2

theorem dependency_subset_ids (h : g.WellFormed) {e : Edge} (he : e ∈ g.dependencyEdges) :
    [e.source, e.target] ⊆ g.ids :=
  h.pair_subset_ids ⟨e, List.mem_of_mem_filter he, rfl, rfl⟩

end WellFormed

end Graph

-- ---------------------------------------------------------------------------
-- Intents
-- ---------------------------------------------------------------------------

section Intents

variable {α : Type} {g : Graph α}

theorem Graph.WellFormed.labelled_subset_ids (hg : g.WellFormed) {β : Type}
    {labels : List (ComponentId × β)} {e : LabelledEdge β} (he : e ∈ g.labelledEdges labels) :
    [e.edge.source, e.edge.target] ⊆ g.ids := by
  obtain ⟨edge, hedge, he⟩ := List.mem_filterMap.1 he
  obtain ⟨_, _, he⟩ := Option.bind_eq_some_iff.1 he
  obtain ⟨_, _, he⟩ := Option.bind_eq_some_iff.1 he
  cases he
  exact hg.dependency_subset_ids hedge

variable [Scalar α]

omit [Scalar α] in
theorem Graph.layersBy_subset_ids (g : Graph α) (k : LayerClassifier) :
    (g.layersBy k).map (·.1) ⊆ g.ids := by
  intro id hid
  obtain ⟨entry, hentry, rfl⟩ := List.mem_map.1 hid
  obtain ⟨c, hc, hlayer⟩ := List.mem_filterMap.1 hentry
  obtain ⟨_, _, rfl⟩ := Option.map_eq_some_iff.1 hlayer
  exact List.mem_map_of_mem hc

theorem Separation.evidence_subset_ids (hg : g.WellFormed) (k : LayerClassifier)
    (weights : SeparationWeights α) :
    ∀ e ∈ (detect k weights g).evidence, e.components ⊆ g.ids := by
  unfold detect
  split
  · exact nofun
  · intro e he
    simp only [CombinedScore.toResult, List.mem_append] at he
    rcases he with (he | he) | he
    · obtain ⟨edge, hedge, rfl⟩ := List.mem_map.1 he
      exact hg.labelled_subset_ids (List.mem_of_mem_filter (List.mem_of_mem_filter hedge))
    · obtain ⟨pair, _, rfl⟩ := List.mem_map.1 he
      apply ascendingNames_flatMap_subset
      intro edge hedge
      exact hg.labelled_subset_ids (List.mem_of_mem_filter (List.mem_of_mem_filter hedge))
    · unfold layeredEvidence at he
      split at he
      · cases he
      · cases List.mem_singleton.1 he
        exact g.layersBy_subset_ids k

theorem Hiding.symbolEvidence_subset_ids {c : Component α} (hc : c ∈ g.components) :
    ∀ e ∈ symbolEvidence c, e.components ⊆ g.ids := by
  intro e he
  have hcomponents : e.components = [c.id] := by
    unfold symbolEvidence at he
    split at he
    · cases he
    · split at he
      · cases List.mem_singleton.1 he
        rfl
      · split at he
        · cases List.mem_singleton.1 he
          rfl
        · cases he
  rw [hcomponents]
  exact Graph.singleton_subset_ids hc

omit [Scalar α] in
theorem Hiding.leakEvidence_subset_ids (hg : g.WellFormed) {u : SymbolUse}
    (hu : u ∈ symbolUses g) : (leakEvidence u).components ⊆ g.ids := by
  obtain ⟨edge, hedge, hu⟩ := List.mem_filterMap.1 hu
  obtain ⟨_, _, rfl⟩ := Option.map_eq_some_iff.1 hu
  exact hg.dependency_subset_ids (List.mem_of_mem_filter hedge)

theorem Hiding.evidence_subset_ids (hg : g.WellFormed) (weights : HidingWeights α) :
    ∀ e ∈ (detect weights g).evidence, e.components ⊆ g.ids := by
  unfold detect
  split
  · exact nofun
  · intro e he
    rcases List.mem_append.1 he with he | he
    · obtain ⟨c, hc, he⟩ := List.mem_flatMap.1 he
      exact symbolEvidence_subset_ids hc e he
    · obtain ⟨u, hu, rfl⟩ := List.mem_map.1 he
      exact leakEvidence_subset_ids hg (List.mem_of_mem_filter hu)

theorem Inversion.evidence_subset_ids (hg : g.WellFormed) (k : LayerClassifier)
    (weights : InversionWeights α) :
    ∀ e ∈ (detect k weights g).evidence, e.components ⊆ g.ids := by
  unfold detect
  split
  · exact nofun
  · intro e he
    obtain ⟨d, hd, rfl⟩ := List.mem_map.1 he
    obtain ⟨edge, hedge, hd⟩ := List.mem_filterMap.1 hd
    obtain ⟨_, _, rfl⟩ := Option.map_eq_some_iff.1 hd
    exact hg.labelled_subset_ids (List.mem_of_mem_filter hedge)

end Intents

-- ---------------------------------------------------------------------------
-- Styles
-- ---------------------------------------------------------------------------

namespace StyleTable

variable {α : Type} [Scalar α] {g : Graph α}

theorem assignRoles_subset_ids (t : StyleTable) (g : Graph α) (intents : List (IntentResult α)) :
    (t.assignRoles g intents).keys ⊆ g.ids := by
  intro id hid
  obtain ⟨entry, hentry, rfl⟩ := List.mem_map.1 (NameMap.keys_ofList_subset _ hid)
  obtain ⟨c, hc, hrole⟩ := List.mem_filterMap.1 hentry
  obtain ⟨_, _, rfl⟩ := Option.map_eq_some_iff.1 hrole
  exact List.mem_map_of_mem hc

theorem roleAssignment_subset_ids (t : StyleTable) (config : StyleConfig α) (g : Graph α)
    (intents : List (IntentResult α)) :
    (t.detect config g intents).roleAssignment.keys ⊆ g.ids := by
  unfold detect
  split
  · exact List.nil_subset _
  · exact t.assignRoles_subset_ids g intents

theorem judged_subset_ids (hg : g.WellFormed) {t : StyleTable} {roles : NameMap Role}
    {j : Judged α} (hj : j ∈ t.judge g roles) : [j.source, j.target] ⊆ g.ids := by
  obtain ⟨arc, harc, hj⟩ := List.mem_filterMap.1 hj
  obtain ⟨_, _, hj⟩ := Option.bind_eq_some_iff.1 hj
  obtain ⟨_, _, hj⟩ := Option.bind_eq_some_iff.1 hj
  cases hj
  exact hg.arc_subset_ids harc

theorem violations_subset_ids (hg : g.WellFormed) (t : StyleTable) (config : StyleConfig α)
    (intents : List (IntentResult α)) :
    ∀ v ∈ (t.detect config g intents).violations, v.participants ⊆ g.ids := by
  intro v hv
  rw [violations_detect] at hv
  obtain ⟨_, _, hrejected, rfl⟩ := exists_of_mem_mapIdx hv
  obtain ⟨j, hj, hverdict⟩ := List.mem_filterMap.1 hrejected
  split at hverdict
  · cases hverdict
  · cases hverdict
    exact judged_subset_ids hg hj

end StyleTable

-- ---------------------------------------------------------------------------
-- Anti-patterns and recommendations
-- ---------------------------------------------------------------------------

theorem AntiPattern.participants_subset_ids {α : Type} [Scalar α] {g : Graph α}
    (hg : g.WellFormed) (config : AntiPatternConfig α) {styles : List (StyleResult α)}
    (c : Classification) (hkeys : (styles.map (·.style)).Nodup)
    (hstyles : ∀ s ∈ styles, ∀ v ∈ s.violations, v.participants ⊆ g.ids) :
    ∀ v ∈ detect config g styles c, v.participants ⊆ g.ids := by
  intro v hv
  simp only [detect, List.mem_append] at hv
  rcases hv with (((hv | hv) | hv) | hv) | hv
  · obtain ⟨_, group, hgroup, rfl⟩ := exists_of_mem_mapIdx hv
    exact Graph.members_subset_ids hgroup
  · obtain ⟨_, c, hc, rfl⟩ := exists_of_mem_mapIdx hv
    exact Graph.singleton_subset_ids (List.mem_of_mem_filter hc)
  · obtain ⟨_, arc, harc, rfl⟩ := exists_of_mem_mapIdx hv
    exact hg.arc_subset_ids (List.mem_of_mem_filter harc)
  · obtain ⟨_, c, hc, rfl⟩ := exists_of_mem_mapIdx hv
    exact Graph.singleton_subset_ids (List.mem_of_mem_filter hc)
  · obtain ⟨s, hs, _, _, hparticipants⟩ := exists_of_mem_erosion hv
    rw [hparticipants]
    exact ascendingNames_flatMap_subset (hstyles s ((mem_eroded hkeys).1 hs).1.1)

namespace Recommendation

variable {α : Type} {ids : List ComponentId}

theorem affected_ofViolations {violations : List (Violation α)}
    (h : ∀ v ∈ violations, v.participants ⊆ ids) :
    ∀ advice ∈ ofViolations violations, advice.affectedComponents ⊆ ids := by
  intro advice hadvice
  obtain ⟨kind, _, hadvice⟩ := List.mem_filterMap.1 hadvice
  dsimp only at hadvice
  split at hadvice
  · cases hadvice
  · cases hadvice
    apply ascendingNames_flatMap_subset
    intro v hv
    exact h v (List.mem_of_mem_filter hv)

theorem affected_ofIntent? [Scalar α] {threshold : α} {r : IntentResult α}
    {advice : Recommendation} (hadvice : ofIntent? threshold r = some advice)
    (h : ∀ e ∈ r.evidence, e.components ⊆ ids) : advice.affectedComponents ⊆ ids := by
  rw [(ofIntent?_eq_some hadvice).2.2]
  apply ascendingNames_flatMap_subset
  intro e he
  exact h e (List.mem_of_mem_filter he)

/-- Advice affects only components that violations or evidence name. -/
theorem affected_recommend [Scalar α] (threshold : α) {violations : List (Violation α)}
    {intents : List (IntentResult α)} (hviolations : ∀ v ∈ violations, v.participants ⊆ ids)
    (hintents : ∀ r ∈ intents, ∀ e ∈ r.evidence, e.components ⊆ ids) :
    ∀ advice ∈ recommend threshold violations intents, advice.affectedComponents ⊆ ids := by
  intro advice hadvice
  rcases List.mem_append.1 (List.mem_mergeSort.1 hadvice) with hadvice | hadvice
  · exact affected_ofViolations hviolations advice hadvice
  · obtain ⟨r, hr, hadvice⟩ := List.mem_filterMap.1 hadvice
    exact affected_ofIntent? hadvice (hintents r hr)

end Recommendation

-- ---------------------------------------------------------------------------
-- Reports
-- ---------------------------------------------------------------------------

/-- Every component that the report names is a component of its graph. -/
structure Report.ReferentiallyClosed {α : Type} (r : Report α) : Prop where
  edges : ∀ e ∈ r.graph.edges, e.source ∈ r.graph.ids ∧ e.target ∈ r.graph.ids
  evidence : ∀ i ∈ r.intents, ∀ e ∈ i.evidence, e.components ⊆ r.graph.ids
  roles : ∀ s ∈ r.styles, s.roleAssignment.keys ⊆ r.graph.ids
  styleViolations : ∀ s ∈ r.styles, ∀ v ∈ s.violations, v.participants ⊆ r.graph.ids
  violations : ∀ v ∈ r.violations, v.participants ⊆ r.graph.ids
  recommendations : ∀ advice ∈ r.recommendations, advice.affectedComponents ⊆ r.graph.ids
  diagnostics : ∀ d ∈ r.diagnostics, d.component ∈ r.graph.ids

/-- A diagnostic is about a reference of the component that it names. -/
theorem Mention.component_of_mem_diagnostics {addresses : List Address} {m : Mention}
    {d : Diagnostic} (h : d ∈ m.diagnostics addresses) : d.component = m.source := by
  unfold Mention.diagnostics at h
  cases hresolution : m.resolve addresses with
  | resolved target strategy =>
    rw [hresolution] at h
    cases h
  | ambiguous target strategy candidates =>
    rw [hresolution] at h
    cases List.mem_singleton.1 h
    rfl
  | unresolved =>
    rw [hresolution] at h
    cases List.mem_singleton.1 h
    rfl

theorem GraphBuild.component_mem_ids {α : Type} [Scalar α] {records : List ComponentRecord}
    {build : GraphBuild α} (h : ofRecords records = .ok build) :
    ∀ d ∈ build.diagnostics, d.component ∈ build.graph.ids := by
  obtain ⟨_, rfl⟩ := ofRecords_eq_ok_iff.1 h
  intro d hd
  rw [diagnostics_ofSorted] at hd
  obtain ⟨m, hm, hd⟩ := List.mem_flatMap.1 hd
  obtain ⟨r, hr, hsource, _⟩ := mem_mentions.1 hm
  rw [ids_ofSorted, Mention.component_of_mem_diagnostics hd, ← hsource]
  exact List.mem_map_of_mem hr

namespace Report.Stages

variable {α : Type} [Scalar α] {config : Config α} {records : List ComponentRecord} {r : Report α}

theorem evidence_subset_ids (h : r.Stages config records) (hg : r.graph.WellFormed) :
    ∀ i ∈ r.intents, ∀ e ∈ i.evidence, e.components ⊆ r.graph.ids := by
  intro i hi
  obtain ⟨k, _, hintents⟩ := h.intents
  rw [hintents] at hi
  simp only [List.mem_cons, List.not_mem_nil, or_false] at hi
  rcases hi with rfl | rfl | rfl
  · exact Separation.evidence_subset_ids hg k _
  · exact Hiding.evidence_subset_ids hg _
  · exact Inversion.evidence_subset_ids hg k _

theorem referentiallyClosed (h : r.Stages config records) : r.ReferentiallyClosed := by
  have hg := GraphBuild.wellFormed_of_ofRecords h.build
  have hevidence := h.evidence_subset_ids hg
  have hstyles : ∀ s ∈ r.styles, ∀ v ∈ s.violations, v.participants ⊆ r.graph.ids := by
    intro s hs
    obtain ⟨t, rfl⟩ := h.exists_table hs
    exact t.violations_subset_ids hg config.styles r.intents
  have hviolations : ∀ v ∈ r.violations, v.participants ⊆ r.graph.ids := by
    intro v hv
    rw [h.violations] at hv
    rcases List.mem_append.1 hv with hv | hv
    · exact AntiPattern.participants_subset_ids hg _ _ h.nodup_style hstyles v hv
    · obtain ⟨s, hs, hv⟩ := List.mem_flatMap.1 hv
      exact hstyles s (List.mem_of_mem_filter hs) v hv
  refine ⟨?_, hevidence, ?_, hstyles, hviolations, ?_, GraphBuild.component_mem_ids h.build⟩
  · intro e he
    exact ⟨hg.sourceMem e he, hg.targetMem e he⟩
  · intro s hs
    obtain ⟨t, rfl⟩ := h.exists_table hs
    exact t.roleAssignment_subset_ids config.styles r.graph r.intents
  · rw [h.recommendations]
    exact Recommendation.affected_recommend _ hviolations hevidence

end Report.Stages

namespace Pipeline

variable {α : Type} [Scalar α]

/-- With the built-in detectors of a validated configuration, accepted records get a
    report that names no component but those of its graph. -/
theorem analyze_referentially_closed {config : Config α} (hconfig : config.validate = .ok ()) :
    ∃ p, standard config = .ok p ∧
      ∀ records, Accepted records →
        ∃ report, p.analyze records = .ok report ∧ report.ReferentiallyClosed :=
  standard_ensures hconfig fun _ _ hstages => hstages.referentiallyClosed

theorem analyze_referentially_closed_erodedRecords :
    ∃ p, standard (.standard Float) = .ok p ∧ Accepted Report.erodedRecords ∧
      ∃ report, p.analyze Report.erodedRecords = .ok report ∧
        report.graph.ids = ["db", "service", "ui", "web"] ∧
        report.diagnostics.map (·.component) = ["service"] ∧
        ["db", "ui"] ∈ report.violations.map (·.participants) ∧
        report.ReferentiallyClosed := by
  have hmutual : (AntiPattern.bidirectionalCoupling Report.erodedGraph).map (·.participants) =
      [["db", "ui"]] := by decide +kernel
  obtain ⟨p, hp, hensured⟩ := analyze_referentially_closed Config.validate_standard
  obtain ⟨report, hreport, hclosed⟩ := hensured _ Report.accepted_erodedRecords
  have hstages := stages_of_analyze hp hreport
  refine ⟨p, hp, Report.accepted_erodedRecords, report, hreport, ?_, ?_, ?_, hclosed⟩
  · rw [hstages.graph_eq_erodedGraph]
    exact GraphBuild.ids_ofSorted _
  · rw [hstages.diagnostics_eq_eroded]
    decide +kernel
  · rw [← hstages.graph_eq_erodedGraph] at hmutual
    rw [hstages.violations, AntiPattern.detect]
    simp [hmutual]

end Pipeline

end ArchAudit
