-- SUMMARY: Leaving out references splits, shrinks or dissolves cycle groups and never makes one.
import ArchAudit.Proofs.Findings
import ArchAudit.Proofs.Reachability
import ArchAudit.Proofs.Revisions
import ArchAudit.Proofs.StandardAnalysis
import Mathlib.Algebra.Order.Field.Rat
import Mathlib.Tactic.Linarith
import Mathlib.Tactic.NormNum
import Mathlib.Tactic.Positivity

/-!
# Fewer references

When records lose some of their references, those that stay resolve as before. So every
edge of the smaller graph joins components that the larger one joins too, and paths and
cycles carry over. The weight within a set of components counts the references among
them, which are not more than before.
-/

namespace ArchAudit

/-! ## Severity -/

theorem div_one_add_le {x y : Rat} (hx : 0 ≤ x) (hxy : x ≤ y) : x / (1 + x) ≤ y / (1 + y) := by
  have hy : 0 ≤ y := hx.trans hxy
  rw [div_le_div_iff₀ (by positivity) (by positivity)]
  linarith

namespace CycleGroup

variable {c d : CycleGroup}

/-- The severity of a group, read exactly, in terms of its size and weight. -/
theorem severity_eq (c : CycleGroup) :
    (c.severity : Rat) =
      (1 / 4 * (c.members.length : Rat) + 1 / 20 * (c.internalWeight : Rat)) /
        (1 + (1 / 4 * (c.members.length : Rat) + 1 / 20 * (c.internalWeight : Rat))) := by
  change ((0.25 : Rat) * c.members.length + 0.05 * c.internalWeight) /
    (1.0 + ((0.25 : Rat) * c.members.length + 0.05 * c.internalWeight)) = _
  norm_num

theorem severity_le (hmembers : c.members.length ≤ d.members.length)
    (hweight : c.internalWeight ≤ d.internalWeight) : (c.severity : Rat) ≤ d.severity := by
  rw [severity_eq, severity_eq]
  apply div_one_add_le
  · positivity
  · have hmembers' : (c.members.length : Rat) ≤ d.members.length := by exact_mod_cast hmembers
    have hweight' : (c.internalWeight : Rat) ≤ d.internalWeight := by exact_mod_cast hweight
    linarith

/-- The members are among those of the other group, which weighs as much and is as
    severe. -/
structure Within (c d : CycleGroup) : Prop where
  members : c.members ⊆ d.members
  internalWeight : c.internalWeight ≤ d.internalWeight
  severity : (c.severity : Rat) ≤ d.severity

end CycleGroup

/-! ## Graphs -/

namespace Graph

variable {α : Type} {g g' : Graph α} {a b : ComponentId}

theorem Mutual.mono (h : ∀ x y, g.Joins x y → g'.Joins x y) (hab : g.Mutual a b) :
    g'.Mutual a b :=
  ⟨Relation.ReflTransGen.mono h _ _ hab.1, Relation.ReflTransGen.mono h _ _ hab.2⟩

theorem OnCycle.mono (h : ∀ x y, g.Joins x y → g'.Joins x y) (ha : g.OnCycle a) : g'.OnCycle a :=
  Relation.TransGen.mono h _ _ ha

/-- Where the other graph joins and weighs at least as much, it has a group around each
    group. -/
theorem WellFormed.exists_within (hg : g.WellFormed) (hg' : g'.WellFormed)
    (hjoins : ∀ x y, g.Joins x y → g'.Joins x y)
    (hweight : ∀ members members', members ⊆ members' →
      g.internalWeight members ≤ g'.internalWeight members')
    {small : CycleGroup} (hsmall : small ∈ g.cycles) : ∃ large ∈ g'.cycles, small.Within large := by
  obtain ⟨a, ha⟩ := exists_mem_members hsmall
  have hcycle := (hg.onCycle_of_mem hsmall ha).mono hjoins
  have hid : a ∈ g'.ids := by
    obtain ⟨_, hfirst, _⟩ := Relation.TransGen.head'_iff.1 hcycle
    exact hg'.source_mem hfirst
  obtain ⟨large, hlarge, ha'⟩ := hg'.exists_group_of_onCycle hid hcycle
  have hmembers : small.members ⊆ large.members := by
    intro b hb
    apply (hg'.mem_members_iff hlarge ha').2
    exact ((hg.mem_members_iff hsmall ha).1 hb).mono hjoins
  have hinternal : small.internalWeight ≤ large.internalWeight := by
    obtain ⟨_, _, rfl, _⟩ := mem_cycles_iff.1 hsmall
    obtain ⟨_, _, rfl, _⟩ := mem_cycles_iff.1 hlarge
    exact hweight _ _ hmembers
  refine ⟨large, hlarge, hmembers, hinternal, ?_⟩
  exact CycleGroup.severity_le ((hg.nodup_members hsmall).subperm hmembers).length_le hinternal

end Graph

/-! ## References -/

/-- The same record with some of its references left out. -/
structure ComponentRecord.Pruned (r r' : ComponentRecord) : Prop where
  references : r'.references.Sublist r.references
  otherwise : r.SameNode r'

open ComponentRecord (Pruned)

theorem ComponentRecord.Pruned.sameNode (r r' : ComponentRecord) (h : r.Pruned r') :
    r.SameNode r' :=
  h.otherwise

/-- The reference leads from one of the components to one of them. -/
def Mention.isWithin (addresses : List Address) (members : List ComponentId) (m : Mention) : Bool :=
  members.contains m.source && (m.resolve addresses).target?.any members.contains

theorem Mention.isWithin_mono {addresses : List Address} {members members' : List ComponentId}
    (h : members ⊆ members') {m : Mention} (hm : m.isWithin addresses members = true) :
    m.isWithin addresses members' = true := by
  simp only [isWithin, Bool.and_eq_true, List.contains_iff_mem, Option.any_eq_true] at hm ⊢
  obtain ⟨hsource, target, htarget, hmem⟩ := hm
  exact ⟨h hsource, target, htarget, h hmem⟩

theorem mentions_sublist {records pruned : List ComponentRecord}
    (h : List.Forall₂ Pruned records pruned) : (mentions pruned).Sublist (mentions records) := by
  induction h with
  | nil => exact .refl _
  | cons hr _ ih =>
    rw [mentions_cons, mentions_cons, hr.otherwise.componentId_eq]
    exact (hr.references.map _).append ih

namespace GraphBuild

variable {α : Type} [Scalar α] {records pruned : List ComponentRecord}

/-- The weight within a set of components counts the references among them. -/
theorem internalWeight_ofSorted (records : List ComponentRecord) (members : List ComponentId) :
    (ofSorted records : GraphBuild α).graph.internalWeight members =
      (mentions records).countP
        (·.isWithin (ofSorted records : GraphBuild α).graph.addresses members) := by
  have hkeys : ∀ e f : Edge, e.key = f.key →
      (members.contains e.source && members.contains e.target) =
        (members.contains f.source && members.contains f.target) := by
    intro e f hkey
    simp only [Edge.key, Prod.mk.injEq] at hkey
    rw [hkey.1, hkey.2.1]
  rw [Graph.internalWeight, edges_ofSorted, filter_collapseEdges hkeys, totalWeight_collapseEdges]
  apply Mention.totalWeight_filter_filterMap_edge?
  · intro m e he
    obtain ⟨target, htarget, rfl⟩ := Option.map_eq_some_iff.1 he
    simp [Mention.isWithin, htarget]
  · intro m he
    have hnone := Option.map_eq_none_iff.1 he
    simp [Mention.isWithin, hnone]

theorem joins_of_pruned (h : List.Forall₂ Pruned records pruned) {a b : ComponentId}
    (hjoins : (ofSorted pruned : GraphBuild α).graph.Joins a b) :
    (ofSorted records : GraphBuild α).graph.Joins a b := by
  obtain ⟨m, hm, hsource, htarget⟩ := joins_ofSorted_iff.1 hjoins
  rw [addresses_of_sameNode (h.imp Pruned.sameNode)] at htarget
  exact joins_ofSorted_iff.2 ⟨m, (mentions_sublist h).subset hm, hsource, htarget⟩

theorem internalWeight_of_pruned (h : List.Forall₂ Pruned records pruned)
    {members members' : List ComponentId} (hmembers : members ⊆ members') :
    (ofSorted pruned : GraphBuild α).graph.internalWeight members ≤
      (ofSorted records : GraphBuild α).graph.internalWeight members' := by
  rw [internalWeight_ofSorted, internalWeight_ofSorted, addresses_of_sameNode (h.imp Pruned.sameNode)]
  apply (mentions_sublist h).countP_le.trans
  apply List.countP_mono_left
  intro m _
  exact Mention.isWithin_mono hmembers

/-- Accepted records stay accepted when references are left out. Each cycle group that
    remains lies within one group from before, the only one that it meets, which weighs
    as much and is as severe; a cycle found among some components was found around them
    before, so none is found where there was none. -/
theorem cycles_within_of_pruned {build : GraphBuild α} (hbuild : ofRecords records = .ok build)
    (h : List.Forall₂ Pruned records pruned) :
    ∃ build' : GraphBuild α, ofRecords pruned = .ok build' ∧
      (∀ small ∈ build'.graph.cycles, ∃ large ∈ build.graph.cycles, small.Within large ∧
        ∀ other ∈ build.graph.cycles, (∃ a ∈ small.members, a ∈ other.members) → other = large) ∧
      (∀ v ∈ AntiPattern.cycles build'.graph, ∃ w ∈ AntiPattern.cycles build.graph,
        v.participants ⊆ w.participants) ∧
      (AntiPattern.cycles build.graph = [] → AntiPattern.cycles build'.graph = []) := by
  obtain ⟨haccepted, rfl⟩ := ofRecords_eq_ok_iff.1 hbuild
  have hsorted := forall₂_sortRecords Pruned.sameNode haccepted h
  have hbuild' : ofRecords pruned = .ok (ofSorted (sortRecords pruned) : GraphBuild α) :=
    ofRecords_eq_ok_iff.2 ⟨haccepted.of_sameNode (h.imp Pruned.sameNode), rfl⟩
  have hg := wellFormed_of_ofRecords hbuild
  have hwithin : ∀ small ∈ (ofSorted (sortRecords pruned) : GraphBuild α).graph.cycles,
      ∃ large ∈ (ofSorted (sortRecords records) : GraphBuild α).graph.cycles,
        small.Within large := by
    intro small hsmall
    apply (wellFormed_of_ofRecords hbuild').exists_within hg _ _ hsmall
    · intro a b
      exact joins_of_pruned hsorted
    · intro members members'
      exact internalWeight_of_pruned hsorted
  have hfound : ∀ v ∈ AntiPattern.cycles (ofSorted (sortRecords pruned) : GraphBuild α).graph,
      ∃ w ∈ AntiPattern.cycles (ofSorted (sortRecords records) : GraphBuild α).graph,
        v.participants ⊆ w.participants := by
    intro v hv
    obtain ⟨small, hsmall, heq⟩ := AntiPattern.exists_cycle_iff.1 ⟨v, hv, rfl⟩
    obtain ⟨large, hlarge, hsize⟩ := hwithin small hsmall
    obtain ⟨w, hw, heq'⟩ := AntiPattern.exists_cycle_iff.2 ⟨large, hlarge, rfl⟩
    refine ⟨w, hw, ?_⟩
    rw [← heq, heq']
    exact hsize.members
  refine ⟨_, hbuild', ?_, hfound, ?_⟩
  · intro small hsmall
    obtain ⟨large, hlarge, hsize⟩ := hwithin small hsmall
    refine ⟨large, hlarge, hsize, ?_⟩
    rintro other hother ⟨a, ha, ha'⟩
    exact hg.group_eq_of_mem hother hlarge ha' (hsize.members ha)
  · intro hnone
    rw [List.eq_nil_iff_forall_not_mem]
    intro v hv
    obtain ⟨w, hw, _⟩ := hfound v hv
    rw [hnone] at hw
    cases hw

/-- Three components on one cycle. -/
def tangledRecords : List ComponentRecord :=
  [Report.importer "app" ["db", "log"], Report.importer "db" ["app"], Report.importer "log" ["db"]]

/-- The same components without the reference from the first to the last. -/
def untangledRecords : List ComponentRecord :=
  [Report.importer "app" ["db"], Report.importer "db" ["app"], Report.importer "log" ["db"]]

/-- The last component leaves the cycle, and the other two stay in what is left of it. -/
theorem cycles_within_of_pruned_untangledRecords :
    ofRecords tangledRecords = .ok (ofSorted tangledRecords : GraphBuild Float) ∧
    List.Forall₂ Pruned tangledRecords untangledRecords ∧
    ∃ build' : GraphBuild Float, ofRecords untangledRecords = .ok build' ∧
      ∃ small ∈ build'.graph.cycles, "db" ∈ small.members ∧ "log" ∉ small.members ∧
        ∃ large ∈ (ofSorted tangledRecords : GraphBuild Float).graph.cycles,
          small.Within large ∧ "log" ∈ large.members := by
  have hbuild : ofRecords tangledRecords = .ok (ofSorted tangledRecords : GraphBuild Float) :=
    ofRecords_of_ascending (by decide) (by decide)
  have huntangled : ofRecords untangledRecords = .ok (ofSorted untangledRecords : GraphBuild Float) :=
    ofRecords_of_ascending (by decide) (by decide)
  have hpruned : List.Forall₂ Pruned tangledRecords untangledRecords :=
    .cons ⟨(List.nil_sublist _).cons_cons _, rfl⟩
      (.cons ⟨.refl _, rfl⟩ (.cons ⟨.refl _, rfl⟩ .nil))
  refine ⟨hbuild, hpruned, ?_⟩
  obtain ⟨build', hbuild', hgroups, _⟩ := cycles_within_of_pruned hbuild hpruned
  obtain rfl : ofSorted untangledRecords = build' := Except.ok.inj (huntangled.symm.trans hbuild')
  refine ⟨_, huntangled, ?_⟩
  have hg := wellFormed_of_ofRecords hbuild
  have hg' := wellFormed_of_ofRecords huntangled
  have hmutual : (ofSorted untangledRecords : GraphBuild Float).graph.hasEdge "app" "db" = true ∧
      (ofSorted untangledRecords : GraphBuild Float).graph.hasEdge "db" "app" = true := by
    decide +kernel
  have haway : ∀ e ∈ (ofSorted untangledRecords : GraphBuild Float).graph.edges,
      e.target ≠ "log" := by
    decide +kernel
  have hlog : (ofSorted tangledRecords : GraphBuild Float).graph.hasEdge "app" "log" = true ∧
      (ofSorted tangledRecords : GraphBuild Float).graph.hasEdge "log" "db" = true ∧
      (ofSorted tangledRecords : GraphBuild Float).graph.hasEdge "db" "app" = true := by
    decide +kernel
  simp only [Graph.hasEdge_iff] at hmutual hlog
  obtain ⟨small, hsmall, happ, hdb⟩ := hg'.exists_group (hg'.source_mem hmutual.1)
    ⟨.single hmutual.1, .single hmutual.2⟩ (by decide)
  obtain ⟨large, hlarge, hwithin, _⟩ := hgroups small hsmall
  refine ⟨small, hsmall, hdb, ?_, large, hlarge, hwithin, ?_⟩
  · intro hmem
    have hreaches := ((hg'.mem_members_iff hsmall happ).1 hmem).1
    rcases hreaches.cases_tail with heq | ⟨_, _, e, he, _, htarget⟩
    · exact absurd heq (by decide)
    · exact haway e he htarget
  · apply (hg.mem_members_iff hlarge (hwithin.members happ)).2
    exact ⟨.single hlog.1, .tail (.single hlog.2.1) hlog.2.2⟩

end GraphBuild

end ArchAudit
