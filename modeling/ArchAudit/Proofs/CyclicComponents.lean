-- SUMMARY: The cycle groups of a graph are its cyclic strongly connected components, in order.
import ArchAudit.Proofs.Reachability

/-!
# Cyclic components

A component is cyclic if a path of one or more edges leads back to it. The groups of a graph
partition its cyclic components by mutual reachability, and each group stands where its
first member does, so ascending components make ascending groups.
-/

namespace ArchAudit

/-- The groups are the strongly connected components of the graph that hold a cycle, each
    listed once, in ascending order, with the weight of all edges inside it. -/
structure Graph.CyclicComponents {α : Type} (g : Graph α) (groups : List CycleGroup) : Prop where
  together_iff : ∀ a b, a ≠ b →
    ((∃ group ∈ groups, a ∈ group.members ∧ b ∈ group.members) ↔ g.Reaches a b ∧ g.Reaches b a)
  member_iff : ∀ a, (∃ group ∈ groups, a ∈ group.members) ↔ g.OnCycle a
  nonempty : ∀ group ∈ groups, group.members ≠ []
  disjoint : groups.Pairwise fun c d => c.members.Disjoint d.members
  membersAscending : ∀ group ∈ groups, group.members.Pairwise (· < ·)
  ascending : groups.Pairwise (·.members < ·.members)
  internalWeight : ∀ group ∈ groups, group.internalWeight =
    Edge.totalWeight (g.edges.filter fun e => e.source ∈ group.members ∧ e.target ∈ group.members)

namespace Graph

variable {α : Type} {g : Graph α} {a b : ComponentId}

namespace WellFormed

theorem mem_of_onCycle (h : g.WellFormed) (ha : g.OnCycle a) : a ∈ g.ids := by
  obtain ⟨_, hjoins, _⟩ := Relation.TransGen.head'_iff.1 ha
  exact h.source_mem hjoins

theorem mem_some_group_iff (h : g.WellFormed) :
    (∃ group ∈ g.cycles, a ∈ group.members) ↔ g.OnCycle a := by
  constructor
  · rintro ⟨group, hgroup, ha⟩
    exact h.onCycle_of_mem hgroup ha
  · intro ha
    exact h.exists_group_of_onCycle (h.mem_of_onCycle ha) ha

theorem mem_one_group_iff (h : g.WellFormed) (hne : a ≠ b) :
    (∃ group ∈ g.cycles, a ∈ group.members ∧ b ∈ group.members) ↔ g.Mutual a b := by
  constructor
  · rintro ⟨group, hgroup, ha, hb⟩
    exact (h.mem_members_iff hgroup ha).1 hb
  · intro hmutual
    exact h.exists_group (h.mem_of_onCycle (hmutual.onCycle hne)) hmutual hne

/-- Groups ascend because each is listed at its first member. -/
theorem ascending_cycles (h : g.WellFormed) : g.cycles.Pairwise (·.members < ·.members) := by
  apply List.pairwise_filterMap.2
  apply h.ascending.imp
  intro first first' hlt group hgroup group' hgroup'
  simp only [Option.ite_none_right_eq_some, Option.some.injEq] at hgroup hgroup'
  obtain ⟨⟨hhead, _⟩, rfl⟩ := hgroup
  obtain ⟨⟨hhead', _⟩, rfl⟩ := hgroup'
  obtain ⟨rest, hmembers⟩ := List.head?_eq_some_iff.1 hhead
  obtain ⟨rest', hmembers'⟩ := List.head?_eq_some_iff.1 hhead'
  simp only [hmembers, hmembers']
  exact List.cons_lt_cons_iff.2 (.inl hlt)

theorem disjoint_cycles (h : g.WellFormed) :
    g.cycles.Pairwise fun c d => c.members.Disjoint d.members := by
  apply h.ascending_cycles.imp_of_mem
  intro c d hc hd hlt x hx hx'
  rw [h.group_eq_of_mem hc hd hx hx'] at hlt
  exact lt_irrefl _ hlt

/-- The cycle groups of a well-formed graph. -/
theorem cyclicComponents (h : g.WellFormed) : g.CyclicComponents g.cycles where
  together_iff _ _ hne := h.mem_one_group_iff hne
  member_iff _ := h.mem_some_group_iff
  nonempty group hgroup := by
    obtain ⟨a, ha⟩ := exists_mem_members hgroup
    exact List.ne_nil_of_mem ha
  disjoint := h.disjoint_cycles
  membersAscending _ hgroup := h.ascending_members hgroup
  ascending := h.ascending_cycles
  internalWeight group hgroup := by
    obtain ⟨_, _, rfl, _⟩ := mem_cycles_iff.1 hgroup
    simp [Graph.internalWeight]

end WellFormed

end Graph

namespace GraphBuild

variable {α : Type} [Scalar α] {records : List ComponentRecord}

/-- In the graph of accepted records, where an edge leads from one component to another
    exactly if a reference of the one means the other, the cycle groups are the cyclic
    strongly connected components. -/
theorem cycles_are_components {build : GraphBuild α} (hbuild : ofRecords records = .ok build) :
    (∀ a b, build.graph.Joins a b ↔
      ∃ m ∈ mentions records, m.source = a ∧
        (m.resolve build.graph.addresses).target? = some b) ∧
    build.graph.CyclicComponents build.graph.cycles := by
  refine ⟨?_, (wellFormed_of_ofRecords hbuild).cyclicComponents⟩
  intro a b
  obtain ⟨_, rfl⟩ := ofRecords_eq_ok_iff.1 hbuild
  rw [joins_ofSorted_iff]
  simp only [(mentions_perm (sortRecords_perm records)).mem_iff]

/-- Two cycles that share `store`, a component that depends on itself, and one that only
    depends on others. -/
def knottedRecords : List ComponentRecord :=
  let record (id : String) (targets : List String) : ComponentRecord :=
    ⟨id, id, id ++ ".rs", 1, .empty, .empty, targets.map fun t => ⟨t, .imports, []⟩, false, false⟩
  [record "cache" ["store"], record "loop" ["loop", "store"], record "main" ["loop", "cache"],
   record "store" ["cache", "view"], record "view" ["store"]]

theorem cycles_are_components_knottedRecords :
    ∃ build : GraphBuild Float, ofRecords knottedRecords = .ok build ∧
      build.graph.CyclicComponents build.graph.cycles ∧
      (∃ group ∈ build.graph.cycles, "cache" ∈ group.members ∧ "view" ∈ group.members) ∧
      (∃ group ∈ build.graph.cycles, "loop" ∈ group.members) ∧
      ¬ ∃ group ∈ build.graph.cycles, "main" ∈ group.members := by
  have hbuild : ofRecords knottedRecords = .ok (ofSorted knottedRecords : GraphBuild Float) :=
    ofRecords_of_ascending (by decide) (by decide)
  obtain ⟨_, hexact⟩ := cycles_are_components hbuild
  have hjoins : ∀ pair ∈ [("cache", "store"), ("store", "cache"), ("store", "view"),
      ("view", "store"), ("loop", "loop")],
      (ofSorted knottedRecords : GraphBuild Float).graph.Joins pair.1 pair.2 := by
    simp only [← Graph.hasEdge_iff]
    decide +kernel
  simp only [List.forall_mem_cons] at hjoins
  obtain ⟨hcs, hsc, hsv, hvs, hloop, _⟩ := hjoins
  have hmain : ∀ e ∈ (ofSorted knottedRecords : GraphBuild Float).graph.edges,
      e.target ≠ "main" := by
    decide +kernel
  refine ⟨_, hbuild, hexact, ?_, (hexact.member_iff "loop").2 (.single hloop), ?_⟩
  · apply (hexact.together_iff "cache" "view" (by decide)).2
    exact ⟨.tail (.single hcs) hsv, .tail (.single hvs) hsc⟩
  · rw [hexact.member_iff "main"]
    intro hcycle
    obtain ⟨_, _, e, he, _, htarget⟩ := Relation.TransGen.tail'_iff.1 hcycle
    exact hmain e he htarget

end GraphBuild

end ArchAudit
