-- SUMMARY: A style result counts the pairs of components with roles that an edge joins, and lists those that the rule rejects.
import ArchAudit.Proofs.MutualCoupling
import ArchAudit.Proofs.StyleFindings
import ArchAudit.Proofs.ViolationIds

/-!
# Judged pairs

A style judges each ordered pair of distinct components with roles once, however many edges join
them. What it says of itself can therefore be read off the pairs in scope: there are as many as
it counts, those that the rule allows and those it rejects add up, and the violations are the
rejected ones in ascending order.
-/

namespace ArchAudit

/-! ## Pairs -/

theorem PairBefore.asymm {p q : ComponentId × ComponentId} (h : PairBefore p q) :
    ¬ PairBefore q p := by
  rintro (hlt | ⟨heq, hlt⟩)
  · rcases h with hlt' | ⟨heq', _⟩
    · exact lt_asymm hlt hlt'
    · exact hlt.ne' heq'
  · rcases h with hlt' | ⟨_, hlt'⟩
    · exact hlt'.ne' heq
    · exact lt_asymm hlt hlt'

/-- Ascending lists with the same pairs are equal. -/
theorem pairs_eq_of_mem_iff {l l' : List (ComponentId × ComponentId)} (h : l.Pairwise PairBefore)
    (h' : l'.Pairwise PairBefore) (hmem : ∀ p, p ∈ l ↔ p ∈ l') : l = l' := by
  have : Std.Irrefl PairBefore := ⟨fun _ hp => hp.asymm hp⟩
  have : Std.Antisymm PairBefore := ⟨fun _ _ hpq hqp => absurd hqp hpq.asymm⟩
  exact h.eq_of_mem_iff h' hmem

theorem Graph.WellFormed.component?_eq {α : Type} {g : Graph α} (h : g.WellFormed)
    {c : Component α} (hc : c ∈ g.components) : g.component? c.id = some c :=
  (find?_key_eq_some_iff h.nodup_ids).2 ⟨hc, rfl⟩

namespace StyleTable

variable {α : Type} [Scalar α] {t : StyleTable} {g : Graph α} {roles : NameMap Role}
  {a b : ComponentId}

/-- The ordered pairs of distinct components with roles that some edge joins. -/
def pairsInScope (g : Graph α) (roles : NameMap Role) : List (ComponentId × ComponentId) :=
  (g.ids.flatMap fun a => g.ids.map fun b => (a, b)).filter fun (a, b) =>
    a ≠ b && g.hasEdge a b && roles.contains a && roles.contains b

omit [Scalar α] in
theorem mem_pairsInScope (hg : g.WellFormed) :
    (a, b) ∈ pairsInScope g roles ↔
      a ≠ b ∧ g.Joins a b ∧ (∃ source, roles.get? a = some source) ∧
        ∃ target, roles.get? b = some target := by
  simp only [pairsInScope, List.mem_filter, Bool.and_eq_true, decide_eq_true_iff,
    Graph.hasEdge_iff, NameMap.contains_eq_isSome_get?, Option.isSome_iff_exists, and_assoc,
    List.mem_flatMap, List.mem_map, Prod.mk.injEq]
  constructor
  · exact And.right
  · intro h
    exact ⟨⟨a, hg.source_mem h.2.1, b, hg.target_mem h.2.1, rfl, rfl⟩, h⟩

omit [Scalar α] in
theorem pairwise_pairsInScope (hg : g.WellFormed) (roles : NameMap Role) :
    (pairsInScope g roles).Pairwise PairBefore := by
  apply List.Pairwise.filter
  apply List.pairwise_flatMap.2
  constructor
  · intro a _
    exact List.pairwise_map.2 (hg.ascending.imp fun hlt => .inr ⟨rfl, hlt⟩)
  · apply hg.ascending.imp
    intro a b hlt p hp q hq
    obtain ⟨_, _, rfl⟩ := List.mem_map.1 hp
    obtain ⟨_, _, rfl⟩ := List.mem_map.1 hq
    exact .inl hlt

/-- The rule rejects a dependency of the one component on the other, given their roles and the
    services that their paths lie in. -/
def Rejects (t : StyleTable) (g : Graph α) (roles : NameMap Role) (a b : ComponentId) : Prop :=
  ∃ c ∈ g.components, ∃ d ∈ g.components, ∃ source target,
    c.id = a ∧ d.id = b ∧ roles.get? a = some source ∧ roles.get? b = some target ∧
      (t.rule.check ⟨source, serviceKey c.filePath⟩ ⟨target, serviceKey d.filePath⟩ : Verdict α)
        ≠ .allowed

/-! ## Judgement -/

/-- The pair that was judged. -/
def Judged.pair (j : Judged α) : ComponentId × ComponentId :=
  (j.source, j.target)

/-- Whether the rule allows the pair. -/
def Judged.isAllowed (j : Judged α) : Bool :=
  j.verdict matches .allowed

omit [Scalar α] in
theorem Judged.isAllowed_eq_false_iff {j : Judged α} :
    j.isAllowed = false ↔ j.verdict ≠ .allowed := by
  unfold isAllowed
  cases j.verdict <;> simp

omit [Scalar α] in
theorem endpoint?_of_mem (hg : g.WellFormed) {c : Component α} (hc : c ∈ g.components) :
    endpoint? g roles c.id =
      (roles.get? c.id).map fun role => ⟨role, serviceKey c.filePath⟩ := by
  rw [endpoint?, hg.component?_eq hc]
  rfl

/-- The judgements are those of the rule on the pairs in scope. -/
theorem mem_judge (hg : g.WellFormed) {j : Judged α} :
    j ∈ t.judge g roles ↔
      ∃ c ∈ g.components, ∃ d ∈ g.components, ∃ source target,
        c.id ≠ d.id ∧ g.Joins c.id d.id ∧
          roles.get? c.id = some source ∧ roles.get? d.id = some target ∧
            j = ⟨c.id, d.id, source, target,
              t.rule.check ⟨source, serviceKey c.filePath⟩ ⟨target, serviceKey d.filePath⟩⟩ := by
  rw [judge, List.mem_filterMap]
  constructor
  · rintro ⟨⟨a, b⟩, harc, hj⟩
    obtain ⟨hne, hjoins⟩ := hg.mem_arcs.1 harc
    obtain ⟨c, hc, rfl⟩ := List.mem_map.1 (hg.source_mem hjoins)
    obtain ⟨d, hd, rfl⟩ := List.mem_map.1 (hg.target_mem hjoins)
    obtain ⟨_, hsource, hj⟩ := Option.bind_eq_some_iff.1 hj
    obtain ⟨_, htarget, hj⟩ := Option.bind_eq_some_iff.1 hj
    rw [endpoint?_of_mem hg hc] at hsource
    rw [endpoint?_of_mem hg hd] at htarget
    obtain ⟨source, hrole, rfl⟩ := Option.map_eq_some_iff.1 hsource
    obtain ⟨target, hrole', rfl⟩ := Option.map_eq_some_iff.1 htarget
    cases hj
    exact ⟨c, hc, d, hd, source, target, hne, hjoins, hrole, hrole', rfl⟩
  · rintro ⟨c, hc, d, hd, source, target, hne, hjoins, hsource, htarget, rfl⟩
    refine ⟨(c.id, d.id), hg.mem_arcs.2 ⟨hne, hjoins⟩, ?_⟩
    simp [endpoint?_of_mem hg hc, endpoint?_of_mem hg hd, hsource, htarget]

/-- The judged pairs are those in scope, in ascending order. -/
theorem map_pair_judge (hg : g.WellFormed) (roles : NameMap Role) :
    (t.judge g roles).map Judged.pair = pairsInScope g roles := by
  apply pairs_eq_of_mem_iff
  · rw [List.pairwise_map, judge, List.pairwise_filterMap]
    apply hg.pairwise_arcs.imp
    intro p q hpq j hj k hk
    obtain ⟨_, _, hj⟩ := Option.bind_eq_some_iff.1 hj
    obtain ⟨_, _, hj⟩ := Option.bind_eq_some_iff.1 hj
    obtain ⟨_, _, hk⟩ := Option.bind_eq_some_iff.1 hk
    obtain ⟨_, _, hk⟩ := Option.bind_eq_some_iff.1 hk
    cases hj
    cases hk
    exact hpq
  · exact pairwise_pairsInScope hg roles
  · rintro ⟨a, b⟩
    simp only [List.mem_map, mem_judge hg, mem_pairsInScope hg]
    constructor
    · rintro ⟨_, ⟨c, _, d, _, source, target, hne, hjoins, hrole, hrole', rfl⟩, heq⟩
      cases heq
      exact ⟨hne, hjoins, ⟨source, hrole⟩, target, hrole'⟩
    · rintro ⟨hne, hjoins, ⟨source, hrole⟩, target, hrole'⟩
      obtain ⟨c, hc, rfl⟩ := List.mem_map.1 (hg.source_mem hjoins)
      obtain ⟨d, hd, rfl⟩ := List.mem_map.1 (hg.target_mem hjoins)
      exact ⟨_, ⟨c, hc, d, hd, source, target, hne, hjoins, hrole, hrole', rfl⟩, rfl⟩

omit [Scalar α] in
theorem map_fst_rejected (judged : List (Judged α)) :
    (rejected judged).map (·.1) = judged.filter (!·.isAllowed) := by
  induction judged with
  | nil => rfl
  | cons j judged ih =>
    rw [rejected, List.filterMap_cons, List.filter_cons, Judged.isAllowed]
    cases j.verdict with
    | allowed => exact ih
    | violates severity => exact congrArg (j :: ·) ih

/-- The pairs that the rule rejects. -/
def rejectedPairs (t : StyleTable) (g : Graph α) (roles : NameMap Role) :
    List (ComponentId × ComponentId) :=
  ((t.judge g roles).filter (!·.isAllowed)).map Judged.pair

theorem pairwise_rejectedPairs (hg : g.WellFormed) (t : StyleTable) (roles : NameMap Role) :
    (t.rejectedPairs g roles).Pairwise PairBefore := by
  have hscope := pairwise_pairsInScope hg roles
  rw [← map_pair_judge (t := t) hg] at hscope
  exact hscope.sublist (List.filter_sublist.map _)

theorem mem_rejectedPairs (hg : g.WellFormed) :
    (a, b) ∈ t.rejectedPairs g roles ↔ (a, b) ∈ pairsInScope g roles ∧ t.Rejects g roles a b := by
  simp only [rejectedPairs, List.mem_map, List.mem_filter, Bool.not_eq_true',
    Judged.isAllowed_eq_false_iff, mem_judge hg, mem_pairsInScope hg]
  constructor
  · rintro ⟨_, ⟨⟨c, hc, d, hd, source, target, hne, hjoins, hrole, hrole', rfl⟩, hverdict⟩, heq⟩
    cases heq
    exact ⟨⟨hne, hjoins, ⟨source, hrole⟩, target, hrole'⟩,
      c, hc, d, hd, source, target, rfl, rfl, hrole, hrole', hverdict⟩
  · rintro ⟨⟨hne, hjoins, _, _⟩, c, hc, d, hd, source, target, rfl, rfl, hrole, hrole', hverdict⟩
    exact ⟨_, ⟨⟨c, hc, d, hd, source, target, hne, hjoins, hrole, hrole', rfl⟩, hverdict⟩, rfl⟩

theorem map_participants_violations (t : StyleTable) (judged : List (Judged α)) :
    (t.violations judged).map (·.participants) =
      ((judged.filter (!·.isAllowed)).map Judged.pair).map fun p => [p.1, p.2] := by
  rw [← map_fst_rejected, List.map_map, List.map_map]
  apply map_mapIdx_eq_map
  intro i x
  rfl

theorem length_violations (t : StyleTable) (judged : List (Judged α)) :
    (t.violations judged).length = (judged.filter (!·.isAllowed)).length := by
  rw [← map_fst_rejected, List.length_map, violations, List.length_mapIdx]

end StyleTable

/-! ## Results -/

/-- What a result counts are the pairs in scope, and what it lists are those of them that the
    rule of the style rejects. -/
structure StyleResult.AccountsForPairs {α : Type} [Scalar α] (r : StyleResult α) (t : StyleTable)
    (g : Graph α) : Prop where
  added : r.metrics.compliantEdges + r.metrics.violatingEdges = r.metrics.inScopeEdges
  listed : r.metrics.violatingEdges = r.violations.length
  inScope : r.metrics.inScopeEdges = (StyleTable.pairsInScope g r.roleAssignment).length
  /-- The violations name the rejected pairs in ascending order, so each of them once. -/
  rejected : ∃ pairs : List (ComponentId × ComponentId),
    r.violations.map (·.participants) = pairs.map (fun p => [p.1, p.2]) ∧
    pairs.Pairwise PairBefore ∧
    ∀ a b, (a, b) ∈ pairs ↔
      (a, b) ∈ StyleTable.pairsInScope g r.roleAssignment ∧ t.Rejects g r.roleAssignment a b
  numbered : NumberedUnder (layerStem t.style) r.violations
  classified : r.metrics.classifiedComponents = r.roleAssignment.size

namespace StyleTable

variable {α : Type} [Scalar α] {t : StyleTable} {g : Graph α} {roles : NameMap Role}

/-- The counts of a result are those of the pairs judged by its own roles. -/
theorem metrics_detect (t : StyleTable) (config : StyleConfig α) (g : Graph α)
    (intents : List (IntentResult α)) :
    let result := t.detect config g intents
    let judged := t.judge g result.roleAssignment
    result.metrics.inScopeEdges = judged.length ∧
      result.metrics.compliantEdges = (judged.filter (·.isAllowed)).length ∧
        result.metrics.violatingEdges = result.violations.length ∧
          result.metrics.classifiedComponents = result.roleAssignment.size := by
  unfold detect
  split
  · have hjudge : t.judge g .empty = [] := by simp [judge, endpoint?]
    simp only [StyleResult.empty, hjudge]
    exact ⟨rfl, rfl, rfl, rfl⟩
  · exact ⟨rfl, rfl, rfl, rfl⟩

/-- The result of a style for a built graph accounts for the pairs in scope: compliant and
    violating pairs add up, each rejected pair is listed once in ascending order, and the
    violations are numbered from one. -/
theorem detect_accounts_for_pairs (t : StyleTable) (config : StyleConfig α)
    {records : List ComponentRecord} {build : GraphBuild α}
    (hbuild : GraphBuild.ofRecords records = .ok build) (intents : List (IntentResult α)) :
    (t.detect config build.graph intents).AccountsForPairs t build.graph := by
  have hg := GraphBuild.wellFormed_of_ofRecords hbuild
  have hviolations := violations_detect t config build.graph intents
  obtain ⟨hinScope, hcompliant, hviolating, hclassified⟩ :=
    metrics_detect t config build.graph intents
  exact {
    added := by
      rw [hcompliant, hviolating, hinScope, hviolations, length_violations]
      exact (List.length_eq_length_filter_add _).symm
    listed := hviolating
    inScope := by
      rw [hinScope, ← map_pair_judge (t := t) hg, List.length_map]
    rejected := by
      refine ⟨t.rejectedPairs build.graph (t.detect config build.graph intents).roleAssignment, ?_,
        pairwise_rejectedPairs hg t _, fun a b => mem_rejectedPairs hg⟩
      rw [hviolations, map_participants_violations]
      rfl
    numbered := by
      rw [hviolations]
      exact numberedUnder_violations t _
    classified := hclassified }

/-- A lowest and a highest layer that depend on each other, the one with edges of two kinds, on
    itself as well, and on a component without a role. -/
def tangledRecords : List ComponentRecord :=
  [⟨"db", "db", "db", 1, .empty, .empty,
      [⟨"ui", .imports, []⟩, ⟨"ui", .calls, []⟩, ⟨"db", .imports, []⟩, ⟨"misc", .imports, []⟩],
      false, false⟩,
   ⟨"misc", "misc", "misc", 1, .empty, .empty, [], false, false⟩,
   ⟨"ui", "ui", "ui", 1, .empty, .empty, [⟨"db", .imports, []⟩], false, false⟩]

theorem detect_accounts_for_pairs_tangledRecords :
    let build : GraphBuild Float := .ofSorted tangledRecords
    let result := layered.detect (.standard Float) build.graph []
    GraphBuild.ofRecords tangledRecords = .ok build ∧
    build.graph.edges.map (fun e => (e.source, e.target)) =
      [("db", "db"), ("db", "misc"), ("db", "ui"), ("db", "ui"), ("ui", "db")] ∧
    pairsInScope build.graph result.roleAssignment = [("db", "ui"), ("ui", "db")] ∧
    result.AccountsForPairs layered build.graph := by
  have hbuild : GraphBuild.ofRecords tangledRecords =
      .ok (.ofSorted tangledRecords : GraphBuild Float) :=
    GraphBuild.ofRecords_of_ascending (by decide) (by decide)
  refine ⟨hbuild, ?_, ?_, detect_accounts_for_pairs layered (.standard Float) hbuild []⟩
  · decide +kernel
  · decide +kernel

end StyleTable

end ArchAudit
