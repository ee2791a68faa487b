-- SUMMARY: Mutual dependencies are found exactly where two components are joined both ways, and they agree with the cycles.
import ArchAudit.Proofs.Findings
import ArchAudit.Proofs.RoleCycles

/-!
# Mutual coupling

Pairs that depend on each other are found among the arcs of the graph, cycles by a search.
The two agree: a mutual pair lies on one cycle, and a group of two members is a mutual pair.
For the latter, a path between the two cannot leave the group, so one of its steps leads
straight from the first to the second.
-/

namespace ArchAudit

/-- The pair comes first in the order of first and then second components. -/
def PairBefore (p q : ComponentId × ComponentId) : Prop :=
  p.1 < q.1 ∨ (p.1 = q.1 ∧ p.2 < q.2)

/-- A path between two distinct points that no step of it leaves has a step from the one
    to the other. -/
theorem step_of_path_in_pair {β : Type} {R : β → β → Prop} {a b : β}
    (hpath : Relation.ReflTransGen R a b) (hne : a ≠ b) (hpair : ∀ x y, R x y → x = a ∨ x = b) :
    R a b := by
  induction hpath with
  | refl => exact absurd rfl hne
  | @tail c b _ hstep ih =>
    rcases hpair c b hstep with rfl | rfl
    · exact hstep
    · exact ih hne hpair

namespace Graph

variable {α : Type} {g : Graph α} {a b : ComponentId}

theorem WellFormed.pairwise_arcs (h : g.WellFormed) : g.arcs.Pairwise PairBefore := by
  apply List.pairwise_flatMap.2
  constructor
  · intro c _
    apply List.pairwise_map.2
    apply (NameSet.ascending _).imp
    intro x y hlt
    exact .inr ⟨rfl, hlt⟩
  · apply (List.pairwise_map.1 h.ascending).imp
    intro c d hlt p hp q hq
    obtain ⟨_, _, rfl⟩ := List.mem_map.1 hp
    obtain ⟨_, _, rfl⟩ := List.mem_map.1 hq
    exact .inl hlt

/-- The members of a group of two are joined both ways. -/
theorem WellFormed.joins_of_members_eq (h : g.WellFormed) {group : CycleGroup}
    (hgroup : group ∈ g.cycles) (hmembers : group.members = [a, b]) (hne : a ≠ b) :
    g.Joins a b ∧ g.Joins b a := by
  have hjoins : ∀ x y, x ≠ y → x ∈ group.members → y ∈ group.members →
      (∀ z ∈ group.members, z = x ∨ z = y) → g.Joins x y := by
    intro x y hxy hx hy hpair
    have hmutual := (h.mem_members_iff hgroup hx).1 hy
    have hstep := step_of_path_in_pair (Mutual.path_within hmutual.1 hmutual.2) hxy (by
      rintro z _ ⟨_, hz, _⟩
      exact hpair z ((h.mem_members_iff hgroup hx).2 hz))
    exact hstep.1
  rw [hmembers] at hjoins
  constructor
  · exact hjoins a b hne (by simp) (by simp) (by simp)
  · exact hjoins b a hne.symm (by simp) (by simp) (by simp [or_comm])

end Graph

namespace AntiPattern

variable {α : Type} [Scalar α] {g : Graph α}

omit [Scalar α] in
theorem mem_mutualPairs (h : g.WellFormed) {a b : ComponentId} :
    (a, b) ∈ mutualPairs g ↔ a < b ∧ g.Joins a b ∧ g.Joins b a := by
  simp only [mutualPairs, List.mem_filter, h.mem_arcs, Bool.and_eq_true, decide_eq_true_iff,
    Graph.hasEdge_iff]
  constructor
  · rintro ⟨⟨_, hab⟩, hlt, hba⟩
    exact ⟨hlt, hab, hba⟩
  · rintro ⟨hlt, hab, hba⟩
    exact ⟨⟨ne_of_lt hlt, hab⟩, hlt, hba⟩

theorem filter_bidirectionalCoupling (config : AntiPatternConfig α) (g : Graph α)
    (styles : List (StyleResult α)) (classification : Classification) :
    (detect config g styles classification).filter (·.kind = .bidirectionalCoupling) =
      bidirectionalCoupling g := by
  apply (filter_detect fun kind => kind = .bidirectionalCoupling).trans
  simp [blocks]

/-- The findings of mutual coupling in a built graph name exactly the pairs of components
    that are joined both ways, once each, lower id first, in ascending order. The
    components of a pair lie in one cycle group, and every cycle group of two members is
    such a pair. -/
theorem mutual_coupling_exact {records : List ComponentRecord} {build : GraphBuild α}
    (hbuild : GraphBuild.ofRecords records = .ok build) (config : AntiPatternConfig α)
    (styles : List (StyleResult α)) (classification : Classification) :
    let g := build.graph
    let found := (detect config g styles classification).filter (·.kind = .bidirectionalCoupling)
    (∃ pairs : List (ComponentId × ComponentId),
      found.map (·.participants) = pairs.map (fun p => [p.1, p.2]) ∧
      pairs.Pairwise PairBefore ∧
      ∀ a b, (a, b) ∈ pairs ↔ a < b ∧ g.Joins a b ∧ g.Joins b a) ∧
    (∀ v ∈ found, ∃ group ∈ g.cycles, v.participants ⊆ group.members) ∧
    (∀ group ∈ g.cycles, group.members.length = 2 →
      ∃ v ∈ found, v.participants = group.members) := by
  intro g found
  have hg : g.WellFormed := GraphBuild.wellFormed_of_ofRecords hbuild
  have hnames : found.map (·.participants) = (mutualPairs g).map fun p => [p.1, p.2] := by
    rw [← map_participants_bidirectionalCoupling, ← filter_bidirectionalCoupling config g styles
      classification]
  refine ⟨⟨mutualPairs g, hnames, hg.pairwise_arcs.filter _, fun a b => mem_mutualPairs hg⟩, ?_, ?_⟩
  · intro v hv
    have hmem := List.mem_map_of_mem (f := Violation.participants) hv
    rw [hnames] at hmem
    obtain ⟨⟨a, b⟩, hpair, heq⟩ := List.mem_map.1 hmem
    obtain ⟨hlt, hab, hba⟩ := (mem_mutualPairs hg).1 hpair
    obtain ⟨group, hgroup, ha, hb⟩ := hg.exists_group (hg.source_mem hab)
      ⟨.single hab, .single hba⟩ (ne_of_lt hlt)
    refine ⟨group, hgroup, ?_⟩
    rw [← heq]
    exact List.cons_subset.2 ⟨ha, List.cons_subset.2 ⟨hb, List.nil_subset _⟩⟩
  · intro group hgroup hlength
    obtain ⟨a, b, hmembers⟩ := List.length_eq_two.1 hlength
    have hlt : a < b := by
      have hascending := hg.ascending_members hgroup
      rw [hmembers] at hascending
      simpa using hascending
    have hpair := (mem_mutualPairs hg).2 ⟨hlt, hg.joins_of_members_eq hgroup hmembers (ne_of_lt hlt)⟩
    have hmem := List.mem_map_of_mem (f := fun p : ComponentId × ComponentId => [p.1, p.2]) hpair
    rw [← hnames, ← hmembers] at hmem
    exact List.mem_map.1 hmem

theorem mutual_coupling_exact_mutualImports :
    GraphBuild.ofRecords (StyleTable.mutualImports "db" "ui") =
      .ok (StyleTable.mutualBuild "db" "ui") ∧
    ∃ v ∈ (detect (.standard Float) (StyleTable.mutualBuild "db" "ui").graph [] .undetermined).filter
        (·.kind = .bidirectionalCoupling),
      v.participants = ["db", "ui"] ∧
        ∃ group ∈ (StyleTable.mutualBuild "db" "ui").graph.cycles,
          v.participants ⊆ group.members := by
  have hbuild : GraphBuild.ofRecords (StyleTable.mutualImports "db" "ui") =
      .ok (StyleTable.mutualBuild "db" "ui") :=
    GraphBuild.ofRecords_of_ascending (by decide) (by decide)
  have hedges : (StyleTable.mutualBuild "db" "ui").graph.hasEdge "db" "ui" = true ∧
      (StyleTable.mutualBuild "db" "ui").graph.hasEdge "ui" "db" = true := by
    decide +kernel
  simp only [Graph.hasEdge_iff] at hedges
  obtain ⟨⟨pairs, hnames, _, hexact⟩, hgroups, _⟩ :=
    mutual_coupling_exact hbuild (.standard Float) [] .undetermined
  have hpair := (hexact "db" "ui").2 ⟨by decide, hedges⟩
  have hmem := List.mem_map_of_mem (f := fun p : ComponentId × ComponentId => [p.1, p.2]) hpair
  rw [← hnames] at hmem
  obtain ⟨v, hv, hparticipants⟩ := List.mem_map.1 hmem
  exact ⟨hbuild, v, hv, hparticipants, hgroups v hv⟩

end AntiPattern

end ArchAudit
