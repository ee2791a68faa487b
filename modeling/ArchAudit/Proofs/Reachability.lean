-- SUMMARY: The search along edges finds exactly what is reachable, and cycle groups are classes of mutual reachability.
import ArchAudit.Proofs.Build
import Mathlib.Logic.Relation

/-!
# Reachability

`explore` returns the nodes of the table that a path leads to from the nodes to do.
Soundness is an invariant of the search alone; completeness needs that whatever
leads out of the nodes seen is still to do. In a well-formed graph the members of a
cycle group are therefore the components that are mutually reachable along edges.
-/

namespace ArchAudit

-- ---------------------------------------------------------------------------
-- Search
-- ---------------------------------------------------------------------------

namespace SuccessorTable

/-- The table leads from one node to the next. -/
def Leads (table : SuccessorTable) (v w : String) : Prop :=
  ∃ next, table[v]? = some next ∧ w ∈ next

end SuccessorTable

open SuccessorTable

/-- Whatever the search finds was seen before or is reached from a node to do. -/
theorem explore_sound {table : SuccessorTable} {todo : List String}
    {seen : Std.HashSet String} {x : String} (hx : x ∈ explore table todo seen) :
    x ∈ seen ∨ ∃ v ∈ todo, Relation.ReflTransGen table.Leads v x := by
  fun_induction explore table todo seen with
  | case1 seen => exact .inl hx
  | case2 seen v rest next hseen hv ih =>
    rcases ih hx with hx | ⟨w, hw, hpath⟩
    · rcases Std.HashSet.mem_insert.1 hx with heq | hx
      · exact .inr ⟨v, List.mem_cons_self, beq_iff_eq.1 heq ▸ .refl⟩
      · exact .inl hx
    · rcases List.mem_append.1 hw with hw | hw
      · exact .inr ⟨v, List.mem_cons_self, .head ⟨next, hv, hw⟩ hpath⟩
      · exact .inr ⟨w, List.mem_cons_of_mem _ hw, hpath⟩
  | case3 seen v rest _ ih =>
    rcases ih hx with hx | ⟨w, hw, hpath⟩
    · exact .inl hx
    · exact .inr ⟨w, List.mem_cons_of_mem _ hw, hpath⟩

/-- Nodes of the table that lead out of a set stay in it or are to do. -/
def LeadsWithin (table : SuccessorTable) (todo : List String) (seen : Std.HashSet String) : Prop :=
  ∀ v ∈ seen, ∀ w ∈ table, table.Leads v w → w ∈ seen ∨ w ∈ todo

namespace LeadsWithin

variable {table : SuccessorTable} {rest next : List String} {seen : Std.HashSet String}
  {v : String}

/-- A node moves from those to do to those seen, and its successors are to do. -/
theorem visit (h : LeadsWithin table (v :: rest) seen) (hv : table[v]? = some next) :
    LeadsWithin table (next ++ rest) (seen.insert v) := by
  intro u hu w hw hleads
  rcases Std.HashSet.mem_insert.1 hu with heq | hu
  · obtain ⟨next', hnext', hmem⟩ := hleads
    rw [← beq_iff_eq.1 heq, hv] at hnext'
    cases hnext'
    exact .inr (List.mem_append_left _ hmem)
  · rcases h u hu w hw hleads with hin | hin
    · exact .inl (Std.HashSet.mem_insert.2 (.inr hin))
    · rcases List.mem_cons.1 hin with rfl | hin
      · exact .inl Std.HashSet.mem_insert_self
      · exact .inr (List.mem_append_right _ hin)

/-- A node that has been seen or is not in the table need not be done. -/
theorem skip (h : LeadsWithin table (v :: rest) seen) (hv : v ∈ table → v ∈ seen) :
    LeadsWithin table rest seen := by
  intro u hu w hw hleads
  rcases h u hu w hw hleads with hin | hin
  · exact .inl hin
  · rcases List.mem_cons.1 hin with rfl | hin
    · exact .inl (hv hw)
    · exact .inr hin

end LeadsWithin

/-- The search ends in a set that holds all nodes seen and to do, and that nothing
    leads out of. -/
theorem explore_complete {table : SuccessorTable} {todo : List String}
    {seen : Std.HashSet String} (h : LeadsWithin table todo seen) :
    (∀ v ∈ seen, v ∈ explore table todo seen) ∧
    (∀ v ∈ todo, v ∈ table → v ∈ explore table todo seen) ∧
    LeadsWithin table [] (explore table todo seen) := by
  fun_induction explore table todo seen with
  | case1 seen => exact ⟨fun v hv => hv, nofun, h⟩
  | case2 seen v rest next hseen hv ih =>
    obtain ⟨hseen', htodo, hclosed⟩ := ih (h.visit hv)
    refine ⟨fun u hu => hseen' u (Std.HashSet.mem_insert.2 (.inr hu)), fun u hu hmem => ?_, hclosed⟩
    rcases List.mem_cons.1 hu with rfl | hu
    · exact hseen' u Std.HashSet.mem_insert_self
    · exact htodo u (List.mem_append_right _ hu) hmem
  | case3 seen v rest hskip ih =>
    have hv : v ∈ table → v ∈ seen := by
      intro hmem
      obtain ⟨next, hnext⟩ := Option.isSome_iff_exists.1
        (Std.HashMap.mem_iff_isSome_getElem?.1 hmem)
      by_contra hnot
      refine hskip next ?_ hnext
      simpa [Std.HashSet.contains_iff_mem] using hnot
    obtain ⟨hseen', htodo, hclosed⟩ := ih (h.skip hv)
    refine ⟨hseen', fun u hu hmem => ?_, hclosed⟩
    rcases List.mem_cons.1 hu with rfl | hu
    · exact hseen' u (hv hmem)
    · exact htodo u hu hmem

/-- From one node of a table that leads only to its own nodes, the search finds what
    is reachable. -/
theorem mem_explore_iff {table : SuccessorTable} (hclosed : ∀ v w, table.Leads v w → w ∈ table)
    {v x : String} (hv : v ∈ table) :
    x ∈ explore table [v] ∅ ↔ Relation.ReflTransGen table.Leads v x := by
  constructor
  · intro hx
    rcases explore_sound hx with hx | ⟨w, hw, hpath⟩
    · exact absurd hx Std.HashSet.not_mem_empty
    · rwa [List.mem_singleton.1 hw] at hpath
  · intro hpath
    have hstart : LeadsWithin table [v] ∅ := fun u hu => absurd hu Std.HashSet.not_mem_empty
    obtain ⟨_, htodo, hwithin⟩ := explore_complete hstart
    induction hpath with
    | refl => exact htodo v List.mem_cons_self hv
    | tail _ hleads ih =>
      rcases hwithin _ ih _ (hclosed _ _ hleads) hleads with hin | hin
      · exact hin
      · cases hin

-- ---------------------------------------------------------------------------
-- Graphs
-- ---------------------------------------------------------------------------

namespace Graph

variable {α : Type} {g : Graph α} {a b c : ComponentId}

/-- An edge of some kind joins the components. -/
def Joins (g : Graph α) (a b : ComponentId) : Prop :=
  ∃ e ∈ g.edges, e.source = a ∧ e.target = b

/-- A path along edges leads from one component to the other. -/
def Reaches (g : Graph α) : ComponentId → ComponentId → Prop :=
  Relation.ReflTransGen g.Joins

theorem hasEdge_iff : g.hasEdge a b = true ↔ g.Joins a b := by
  simp [hasEdge, Joins]

theorem mem_successors : b ∈ g.successors a ↔ g.Joins a b := by
  simp [successors, outgoing, Joins, and_assoc]

namespace WellFormed

theorem nodup_ids (h : g.WellFormed) : g.ids.Nodup :=
  h.ascending.imp fun hlt => ne_of_lt hlt

theorem source_mem (h : g.WellFormed) (hjoins : g.Joins a b) : a ∈ g.ids := by
  obtain ⟨e, he, rfl, _⟩ := hjoins
  exact h.sourceMem e he

theorem target_mem (h : g.WellFormed) (hjoins : g.Joins a b) : b ∈ g.ids := by
  obtain ⟨e, he, _, rfl⟩ := hjoins
  exact h.targetMem e he

theorem mem_of_reaches (h : g.WellFormed) (ha : a ∈ g.ids) (hpath : g.Reaches a b) :
    b ∈ g.ids := by
  cases hpath with
  | refl => exact ha
  | tail _ hjoins => exact h.target_mem hjoins

theorem getElem?_successorTable (h : g.WellFormed) (ha : a ∈ g.ids) :
    g.successorTable[a]? = some (g.successors a) := by
  refine Std.HashMap.getElem?_ofList_of_mem (beq_self_eq_true a) ?_
    (List.mem_map.2 ⟨a, ha, rfl⟩)
  exact List.pairwise_map.2 (h.nodup_ids.imp fun hne => by simpa using hne)

theorem mem_successorTable : a ∈ g.successorTable ↔ a ∈ g.ids := by
  simp [successorTable]

theorem leads_iff (h : g.WellFormed) : g.successorTable.Leads a b ↔ g.Joins a b := by
  constructor
  · rintro ⟨next, hnext, hb⟩
    have ha : a ∈ g.ids :=
      mem_successorTable.1 (Std.HashMap.mem_iff_isSome_getElem?.2 (by simp [hnext]))
    rw [h.getElem?_successorTable ha] at hnext
    cases hnext
    exact mem_successors.1 hb
  · intro hjoins
    exact ⟨_, h.getElem?_successorTable (h.source_mem hjoins), mem_successors.2 hjoins⟩

/-- What the search from a component finds. -/
theorem mem_explore_successorTable (h : g.WellFormed) (ha : a ∈ g.ids) :
    b ∈ explore g.successorTable [a] ∅ ↔ g.Reaches a b := by
  have hrel : g.successorTable.Leads = g.Joins := by
    funext v w
    exact propext h.leads_iff
  rw [mem_explore_iff ?_ (mem_successorTable.2 ha), hrel]
  · rfl
  · intro v w hleads
    exact mem_successorTable.2 (h.target_mem (h.leads_iff.1 hleads))

end WellFormed

-- ---------------------------------------------------------------------------
-- Cycle groups
-- ---------------------------------------------------------------------------

/-- Each of the components is reachable from the other. -/
def Mutual (g : Graph α) (a b : ComponentId) : Prop :=
  g.Reaches a b ∧ g.Reaches b a

theorem Mutual.refl (g : Graph α) (a : ComponentId) : g.Mutual a a :=
  ⟨.refl, .refl⟩

theorem Mutual.symm (h : g.Mutual a b) : g.Mutual b a :=
  ⟨h.2, h.1⟩

theorem Mutual.trans (hab : g.Mutual a b) (hbc : g.Mutual b c) : g.Mutual a c :=
  ⟨Relation.ReflTransGen.trans hab.1 hbc.1, Relation.ReflTransGen.trans hbc.2 hab.2⟩

/-- A path between mutually reachable components stays among them. -/
theorem Mutual.path_within (hab : g.Reaches a b) (hba : g.Reaches b a) :
    Relation.ReflTransGen (fun x y => g.Joins x y ∧ g.Mutual a x ∧ g.Mutual a y) a b := by
  induction hab with
  | refl => exact .refl
  | @tail c b hac hjoins ih =>
    have hca : g.Reaches c a := .head hjoins hba
    exact (ih hca).tail ⟨hjoins, ⟨hac, hca⟩, ⟨.tail hac hjoins, hba⟩⟩

theorem map_fst_reachable (g : Graph α) : g.reachable.map (·.1) = g.ids := by
  simp [reachable, Function.comp_def]

theorem lookup_reachable (ha : a ∈ g.ids) :
    g.reachable.lookup a = some (explore g.successorTable [a] ∅) :=
  lookup_map_pair ha

/-- Groups list their members in the order of the components. -/
theorem mutuallyReachable_sublist (g : Graph α) (a : ComponentId) :
    (mutuallyReachable g.reachable a).Sublist g.ids := by
  rw [← map_fst_reachable]
  exact List.filter_sublist.map _

theorem WellFormed.mem_mutuallyReachable (h : g.WellFormed) (ha : a ∈ g.ids) :
    b ∈ mutuallyReachable g.reachable a ↔ g.Mutual a b := by
  simp only [mutuallyReachable, lookup_reachable ha, Option.getD_some, List.mem_map,
    List.mem_filter, Bool.and_eq_true, Std.HashSet.contains_iff_mem]
  constructor
  · rintro ⟨⟨x, found⟩, ⟨hmem, hforward, hback⟩, rfl⟩
    obtain ⟨y, hy, heq⟩ := List.mem_map.1 hmem
    cases heq
    exact ⟨(h.mem_explore_successorTable ha).1 hforward,
      (h.mem_explore_successorTable hy).1 hback⟩
  · intro hmutual
    have hb := h.mem_of_reaches ha hmutual.1
    exact ⟨(b, explore g.successorTable [b] ∅), ⟨List.mem_map.2 ⟨b, hb, rfl⟩,
      (h.mem_explore_successorTable ha).2 hmutual.1,
      (h.mem_explore_successorTable hb).2 hmutual.2⟩, rfl⟩

/-- A group is listed at its first member, and a lone member depends on itself. -/
theorem mem_cycles_iff {group : CycleGroup} :
    group ∈ g.cycles ↔
      ∃ a ∈ g.ids, group = ⟨mutuallyReachable g.reachable a,
          g.internalWeight (mutuallyReachable g.reachable a)⟩ ∧
        group.members.head? = some a ∧ (1 < group.members.length ∨ g.Joins a a) := by
  simp only [cycles, List.mem_filterMap, Option.ite_none_right_eq_some, Option.some.injEq,
    hasEdge_iff]
  constructor
  · rintro ⟨a, ha, ⟨hhead, hcyclic⟩, rfl⟩
    exact ⟨a, ha, rfl, hhead, hcyclic⟩
  · rintro ⟨a, ha, rfl, hhead, hcyclic⟩
    exact ⟨a, ha, ⟨hhead, hcyclic⟩, rfl⟩

theorem exists_mem_members {group : CycleGroup} (hgroup : group ∈ g.cycles) :
    ∃ a, a ∈ group.members := by
  obtain ⟨a, _, _, hhead, _⟩ := mem_cycles_iff.1 hgroup
  exact ⟨a, List.mem_of_head? hhead⟩

/-- The members of a group are those mutually reachable with any one of them. -/
theorem WellFormed.mem_members_iff (h : g.WellFormed) {group : CycleGroup}
    (hgroup : group ∈ g.cycles) (ha : a ∈ group.members) :
    b ∈ group.members ↔ g.Mutual a b := by
  obtain ⟨first, hfirst, rfl, _⟩ := mem_cycles_iff.1 hgroup
  simp only [h.mem_mutuallyReachable hfirst] at ha ⊢
  exact ⟨ha.symm.trans, ha.trans⟩

theorem WellFormed.mutuallyReachable_congr (h : g.WellFormed) (ha : a ∈ g.ids)
    (hab : g.Mutual a b) :
    mutuallyReachable g.reachable b = mutuallyReachable g.reachable a := by
  refine (h.ascending.sublist (mutuallyReachable_sublist g b)).eq_of_mem_iff
    (h.ascending.sublist (mutuallyReachable_sublist g a)) fun c => ?_
  rw [h.mem_mutuallyReachable (h.mem_of_reaches ha hab.1), h.mem_mutuallyReachable ha]
  exact ⟨hab.trans, hab.symm.trans⟩

theorem WellFormed.ascending_members (h : g.WellFormed) {group : CycleGroup}
    (hgroup : group ∈ g.cycles) : group.members.Pairwise (· < ·) := by
  obtain ⟨first, _, rfl, _⟩ := mem_cycles_iff.1 hgroup
  exact h.ascending.sublist (mutuallyReachable_sublist g first)

theorem WellFormed.nodup_members (h : g.WellFormed) {group : CycleGroup}
    (hgroup : group ∈ g.cycles) : group.members.Nodup :=
  (h.ascending_members hgroup).imp fun hlt => ne_of_lt hlt

/-- A group is determined by any of its members. -/
theorem WellFormed.group_eq_of_mem (h : g.WellFormed) {group group' : CycleGroup}
    (hgroup : group ∈ g.cycles) (hgroup' : group' ∈ g.cycles) (ha : a ∈ group.members)
    (ha' : a ∈ group'.members) : group = group' := by
  obtain ⟨first, hfirst, rfl, _⟩ := mem_cycles_iff.1 hgroup
  obtain ⟨first', hfirst', rfl, _⟩ := mem_cycles_iff.1 hgroup'
  have hmutual : g.Mutual first first' :=
    ((h.mem_mutuallyReachable hfirst).1 ha).trans ((h.mem_mutuallyReachable hfirst').1 ha').symm
  rw [h.mutuallyReachable_congr hfirst hmutual]

/-- A path of one or more edges leads from the component back to itself. -/
def OnCycle (g : Graph α) (a : ComponentId) : Prop :=
  Relation.TransGen g.Joins a a

theorem Mutual.onCycle (h : g.Mutual a b) (hne : a ≠ b) : g.OnCycle a := by
  have hab : Relation.TransGen g.Joins a b :=
    (Relation.reflTransGen_iff_eq_or_transGen.1 h.1).resolve_left hne.symm
  exact hab.trans_left h.2

theorem WellFormed.onCycle_of_mem (h : g.WellFormed) {group : CycleGroup}
    (hgroup : group ∈ g.cycles) (ha : a ∈ group.members) : g.OnCycle a := by
  by_cases hothers : ∃ b ∈ group.members, a ≠ b
  · obtain ⟨b, hb, hne⟩ := hothers
    exact ((h.mem_members_iff hgroup ha).1 hb).onCycle hne
  · push Not at hothers
    obtain ⟨first, _, _, hhead, hcyclic⟩ := mem_cycles_iff.1 hgroup
    obtain rfl := hothers first (List.mem_of_head? hhead)
    have hshort : ¬ 1 < group.members.length := by
      intro hlong
      have hsame := List.eq_replicate_iff.2 ⟨rfl, fun b hb => (hothers b hb).symm⟩
      have hnodup := h.nodup_members hgroup
      rw [hsame, List.nodup_replicate] at hnodup
      omega
    exact .single (hcyclic.resolve_left hshort)

/-- A component that lies on a cycle is a member of some group. -/
theorem WellFormed.exists_group_of_onCycle (h : g.WellFormed) (ha : a ∈ g.ids)
    (hcycle : g.OnCycle a) : ∃ group ∈ g.cycles, a ∈ group.members := by
  have hmem := (h.mem_mutuallyReachable ha).2 (.refl g a)
  cases hlist : mutuallyReachable g.reachable a with
  | nil => rw [hlist] at hmem; cases hmem
  | cons first rest =>
    -- The group is listed at its first member, which need not be this one.
    have hfirst : g.Mutual a first :=
      (h.mem_mutuallyReachable ha).1 (hlist ▸ List.mem_cons_self)
    have hcongr := h.mutuallyReachable_congr ha hfirst
    refine ⟨⟨_, _⟩, mem_cycles_iff.2 ⟨first, h.mem_of_reaches ha hfirst.1, rfl, ?_, ?_⟩,
      hcongr ▸ hmem⟩
    · rw [hcongr, hlist]
      rfl
    · rw [hcongr, hlist]
      rw [hlist] at hmem
      cases rest with
      | cons second rest => exact .inl (by simp)
      | nil =>
        -- The next component on the cycle is in the group as well, so it is this one.
        obtain ⟨b, hjoins, hback⟩ := Relation.TransGen.head'_iff.1 hcycle
        have hb := (h.mem_mutuallyReachable ha).2 ⟨.single hjoins, hback⟩
        rw [hlist, List.mem_singleton] at hb
        rw [List.mem_singleton] at hmem
        exact .inr (by rwa [hb, hmem] at hjoins)

/-- Two components that lie on a cycle are members of some group. -/
theorem WellFormed.exists_group (h : g.WellFormed) (ha : a ∈ g.ids) (hab : g.Mutual a b)
    (hne : a ≠ b) : ∃ group ∈ g.cycles, a ∈ group.members ∧ b ∈ group.members := by
  obtain ⟨group, hgroup, hmem⟩ := h.exists_group_of_onCycle ha (hab.onCycle hne)
  exact ⟨group, hgroup, hmem, (h.mem_members_iff hgroup hmem).2 hab⟩

end Graph

namespace GraphBuild

variable {α : Type} [Scalar α] {records : List ComponentRecord}

/-- Components are joined if a reference of the one means the other. -/
theorem joins_ofSorted_iff {a b : ComponentId} :
    (ofSorted records : GraphBuild α).graph.Joins a b ↔
      ∃ m ∈ mentions records, m.source = a ∧
        (m.resolve (ofSorted records : GraphBuild α).graph.addresses).target? = some b := by
  constructor
  · rintro ⟨e, he, rfl, rfl⟩
    obtain ⟨m, hm, hsource, htarget, _⟩ := exists_makes_of_mem_edges he
    exact ⟨m, hm, hsource, htarget⟩
  · rintro ⟨m, hm, hsource, htarget⟩
    obtain ⟨e, he, hkey⟩ := exists_edge_iff_ofSorted.2
      ⟨m, hm, (⟨hsource, htarget, rfl⟩ : m.Makes _ (a, b, m.reference.kind))⟩
    simp only [Edge.key, Prod.mk.injEq] at hkey
    exact ⟨e, he, hkey.1, hkey.2.1⟩

end GraphBuild

end ArchAudit
