-- SUMMARY: An analysis does not depend on the order of records, nor its findings on the order of references.
import ArchAudit.Proofs.Revisions
import ArchAudit.Proofs.StandardAnalysis

/-!
# Order of the input

Records are arranged before anything is made of them, so their order is lost. The
references of a record are collapsed into edges, which gather them whatever their
order; only the diagnostics list them one by one. All other parts of a report are
computed from the graph.
-/

namespace ArchAudit

-- ---------------------------------------------------------------------------
-- References
-- ---------------------------------------------------------------------------

/-- The same record, with its references in another order. -/
structure ComponentRecord.Rearranged (r r' : ComponentRecord) : Prop where
  references : r.references.Perm r'.references
  otherwise : r' = { r with references := r'.references }

open ComponentRecord (Rearranged)

theorem ComponentRecord.Rearranged.sameNode (r r' : ComponentRecord) (h : r.Rearranged r') :
    r.SameNode r' :=
  h.otherwise

section Records

variable {records records' : List ComponentRecord}

theorem mentions_of_rearranged (h : List.Forall₂ Rearranged records records') :
    (mentions records).Perm (mentions records') := by
  induction h with
  | nil => exact .refl _
  | cons hr _ ih =>
    rw [mentions_cons, mentions_cons, (Rearranged.sameNode _ _ hr).componentId_eq]
    exact (hr.references.map _).append ih

/-- The records in another order, each with its references in another order. -/
def Reordered (records records' : List ComponentRecord) : Prop :=
  ∃ arranged, records.Perm arranged ∧ List.Forall₂ Rearranged arranged records'

theorem Reordered.accepted_iff (h : Reordered records records') :
    Accepted records ↔ Accepted records' := by
  obtain ⟨arranged, hperm, hrearranged⟩ := h
  rw [← accepted_iff_of_sameNode (hrearranged.imp Rearranged.sameNode)]
  exact ⟨fun h => h.perm hperm, fun h => h.perm hperm.symm⟩

/-- Sorting undoes the reordering of the records and leaves that of the references. -/
theorem Reordered.sortRecords (h : Reordered records records') (haccepted : Accepted records) :
    List.Forall₂ Rearranged (sortRecords records) (sortRecords records') := by
  obtain ⟨arranged, hperm, hrearranged⟩ := h
  rw [sortRecords_eq_of_perm hperm haccepted.distinct]
  exact forall₂_sortRecords Rearranged.sameNode (haccepted.perm hperm) hrearranged

end Records

-- ---------------------------------------------------------------------------
-- Builds
-- ---------------------------------------------------------------------------

namespace GraphBuild

variable {α : Type} [Scalar α] {records records' : List ComponentRecord}

/-- The order of references shows in the diagnostics only. -/
theorem ofSorted_of_rearranged (h : List.Forall₂ Rearranged records records') :
    (ofSorted records' : GraphBuild α).graph = (ofSorted records : GraphBuild α).graph ∧
      (ofSorted records : GraphBuild α).diagnostics.Perm
        (ofSorted records' : GraphBuild α).diagnostics := by
  have hnodes := h.imp Rearranged.sameNode
  have hmentions := mentions_of_rearranged h
  constructor
  · rw [graph_ofSorted, graph_ofSorted, bareGraph, bareGraph,
      map_eq_of_sameNode (fun _ _ => rfl) hnodes, collapseEdges_perm (hmentions.filterMap _)]
  · rw [diagnostics_ofSorted, diagnostics_ofSorted, addresses_of_sameNode hnodes]
    exact hmentions.flatMap_right _

theorem exists_error_of_not_accepted (h : ¬ Accepted records) :
    ∃ e, (ofRecords records : Except RecordError (GraphBuild α)) = .error e := by
  cases hbuild : (ofRecords records : Except RecordError (GraphBuild α)) with
  | error e => exact ⟨e, rfl⟩
  | ok build => exact absurd (ofRecords_eq_ok_iff.1 hbuild).1 h

end GraphBuild

-- ---------------------------------------------------------------------------
-- Reports
-- ---------------------------------------------------------------------------

namespace Pipeline

variable {α : Type} [Scalar α] {p : Pipeline α}

/-- Both analyses fail because of a record. -/
def BothRefuse (p : Pipeline α) (records records' : List ComponentRecord) : Prop :=
  ∃ e e', p.analyze records = .error (.input (.record e)) ∧
    p.analyze records' = .error (.input (.record e'))

theorem bothRefuse {records records' : List ComponentRecord} (h : ¬ Accepted records)
    (h' : ¬ Accepted records') : p.BothRefuse records records' := by
  obtain ⟨e, he⟩ := GraphBuild.exists_error_of_not_accepted (α := α) h
  obtain ⟨e', he'⟩ := GraphBuild.exists_error_of_not_accepted (α := α) h'
  exact ⟨e, e', analyze_of_error he, analyze_of_error he'⟩

theorem reportOf_of_graph_eq {build build' : GraphBuild α} (h : build'.graph = build.graph) :
    p.reportOf build' = { p.reportOf build with diagnostics := build'.diagnostics } := by
  simp only [reportOf, report, h]

/-- With the built-in detectors of a validated configuration, the order of the
    records makes no difference, and the order of the references in each record
    makes one in the order of the diagnostics only. -/
theorem analyze_order_independent {config : Config α} (hconfig : config.validate = .ok ()) :
    ∃ p, standard config = .ok p ∧
      (∀ records records', records.Perm records' →
        p.BothRefuse records records' ∨
        ∃ report, p.analyze records = .ok report ∧ p.analyze records' = .ok report) ∧
      (∀ records records', Reordered records records' →
        p.BothRefuse records records' ∨
        ∃ report report', p.analyze records = .ok report ∧ p.analyze records' = .ok report' ∧
          report' = { report with diagnostics := report'.diagnostics } ∧
          report.diagnostics.Perm report'.diagnostics) := by
  obtain ⟨p, hp, hrun⟩ := standard_of_validate hconfig
  refine ⟨p, hp, fun records records' hperm => ?_, fun records records' hreordered => ?_⟩
  · by_cases haccepted : Accepted records
    · refine .inr ⟨_, analyze_of_ok hrun (GraphBuild.ofRecords_eq_ok_iff.2 ⟨haccepted, rfl⟩), ?_⟩
      rw [sortRecords_eq_of_perm hperm haccepted.distinct]
      exact analyze_of_ok hrun (GraphBuild.ofRecords_eq_ok_iff.2 ⟨haccepted.perm hperm, rfl⟩)
    · exact .inl (bothRefuse haccepted fun h => haccepted (h.perm hperm.symm))
  · by_cases haccepted : Accepted records
    · have haccepted' := hreordered.accepted_iff.1 haccepted
      obtain ⟨hgraph, hdiagnostics⟩ :=
        GraphBuild.ofSorted_of_rearranged (α := α) (hreordered.sortRecords haccepted)
      exact .inr ⟨_, _, analyze_of_ok hrun (GraphBuild.ofRecords_eq_ok_iff.2 ⟨haccepted, rfl⟩),
        analyze_of_ok hrun (GraphBuild.ofRecords_eq_ok_iff.2 ⟨haccepted', rfl⟩),
        reportOf_of_graph_eq hgraph, hdiagnostics⟩
    · exact .inl (bothRefuse haccepted fun h => haccepted (hreordered.accepted_iff.2 h))

/-- The sample records from last to first, and so the references of each. -/
def reversedRecords : List ComponentRecord :=
  GraphBuild.sampleRecords.reverse.map fun r => { r with references := r.references.reverse }

theorem analyze_order_independent_reversedRecords :
    ∃ p, standard (.standard Float) = .ok p ∧
      ∃ report report', p.analyze GraphBuild.sampleRecords = .ok report ∧
        p.analyze reversedRecords = .ok report' ∧
        report' = { report with diagnostics := report'.diagnostics } ∧
        report.diagnostics.Perm report'.diagnostics := by
  have hvalid : (Config.standard Float).validate = .ok () := by decide +kernel
  have hreordered : Reordered GraphBuild.sampleRecords reversedRecords := by
    refine ⟨_, (List.reverse_perm _).symm, List.forall₂_map_right_iff.2 ?_⟩
    exact List.forall₂_same.2 fun r _ => ⟨(List.reverse_perm _).symm, rfl⟩
  have hbuild : GraphBuild.ofRecords GraphBuild.sampleRecords =
      .ok (.ofSorted (sortRecords GraphBuild.sampleRecords) : GraphBuild Float) := by
    have hnone : firstProblem? 0 [] GraphBuild.sampleRecords = none := by decide
    rw [GraphBuild.ofRecords, hnone]
  obtain ⟨p, hp, hrun⟩ := standard_of_validate hvalid
  obtain ⟨p', hp', _, hreferences⟩ := analyze_order_independent hvalid
  obtain rfl : p = p' := Except.ok.inj (hp.symm.trans hp')
  rcases hreferences _ _ hreordered with ⟨e, _, he, _⟩ | hreports
  · rw [analyze_of_ok hrun hbuild] at he
    cases he
  · exact ⟨p, hp, hreports⟩

end Pipeline

end ArchAudit
