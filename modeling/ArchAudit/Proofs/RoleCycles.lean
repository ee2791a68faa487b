-- SUMMARY: Without layer violations, components that depend on each other in a cycle share one role.
import ArchAudit.Proofs.Reachability
import ArchAudit.Proofs.StyleResults

/-!
# Roles along cycles

The rules of all styles but microservices order their roles: an allowed dependency
between two roles leads down a chain of roles. Where no pair is rejected, a path
among components with roles therefore stays at one role or ends further down, and a
path that returns to its start has stayed at one role.
-/

namespace ArchAudit

-- ---------------------------------------------------------------------------
-- Rules
-- ---------------------------------------------------------------------------

namespace EdgeRule

variable {α : Type} [Scalar α] {chain : List Role} {a b : Role}

/-- What the rule allows between distinct roles leads down the chain. -/
def DescendsAlong (α : Type) [Scalar α] (rule : EdgeRule) (chain : List Role) : Prop :=
  ∀ source target : Endpoint, (rule.check source target : Verdict α) = .allowed →
    source.role ≠ target.role → chain.idxOf source.role < chain.idxOf target.role

theorem position?_eq_some {n : Nat} (h : position? chain a = some n) : chain.idxOf a = n := by
  rw [position?] at h
  split at h
  · exact Option.some.inj h
  · cases h

theorem idxOf_of_checkAdjacent (h : (checkAdjacent chain a b : Verdict α) = .allowed) :
    chain.idxOf b = chain.idxOf a + 1 := by
  unfold checkAdjacent at h
  split at h
  · next i j hi hj =>
    rw [position?_eq_some hi, position?_eq_some hj]
    by_contra hne
    rw [if_neg hne] at h
    split at h <;> cases h
  · cases h

theorem idxOf_lt_of_checkInward (h : (checkInward chain a b : Verdict α) = .allowed) :
    chain.idxOf a < chain.idxOf b := by
  unfold checkInward at h
  split at h
  · next i j hi hj =>
    rw [position?_eq_some hi, position?_eq_some hj]
    by_contra hge
    rw [if_neg hge] at h
    cases h
  · cases h

theorem mem_of_checkPairs {allowed forbidden : List (Role × Role)}
    (h : (checkPairs allowed forbidden a b : Verdict α) = .allowed) : (a, b) ∈ allowed := by
  unfold checkPairs at h
  by_contra hnot
  rw [if_neg hnot] at h
  split at h <;> cases h

theorem descendsAlong_adjacentDownward (chain : List Role) :
    (adjacentDownward chain).DescendsAlong α chain := by
  intro source target h hne
  rw [check, if_neg hne] at h
  rw [idxOf_of_checkAdjacent h]
  exact Nat.lt_succ_self _

theorem descendsAlong_inward (chain : List Role) : (inward chain).DescendsAlong α chain := by
  intro source target h hne
  rw [check, if_neg hne] at h
  exact idxOf_lt_of_checkInward h

/-- A rule of pairs descends along any chain that puts the pairs in order. -/
theorem descendsAlong_pairs {allowed forbidden : List (Role × Role)}
    (horder : ∀ p ∈ allowed, chain.idxOf p.1 < chain.idxOf p.2) :
    (pairs allowed forbidden).DescendsAlong α chain := by
  intro source target h hne
  rw [check, if_neg hne] at h
  exact horder _ (mem_of_checkPairs h)

end EdgeRule

-- ---------------------------------------------------------------------------
-- Arcs
-- ---------------------------------------------------------------------------

namespace Graph

variable {α : Type} {g : Graph α} {a b : ComponentId}

theorem mem_dependencies : b ∈ g.dependencies a ↔ a ≠ b ∧ g.Joins a b := by
  simp only [dependencies, mem_ascendingNames, dependencyEdges, List.mem_map, List.mem_filter,
    Edge.isSelfLoop, Joins, Bool.not_eq_true', beq_eq_false_iff_ne, beq_iff_eq]
  constructor
  · rintro ⟨e, ⟨⟨he, hne⟩, rfl⟩, rfl⟩
    exact ⟨hne, e, he, rfl, rfl⟩
  · rintro ⟨hne, e, he, rfl, rfl⟩
    exact ⟨e, ⟨⟨he, hne⟩, rfl⟩, rfl⟩

theorem WellFormed.mem_arcs (h : g.WellFormed) : (a, b) ∈ g.arcs ↔ a ≠ b ∧ g.Joins a b := by
  simp only [arcs, List.mem_flatMap, List.mem_map, mem_dependencies]
  constructor
  · rintro ⟨c, _, target, hjoins, heq⟩
    cases heq
    exact hjoins
  · intro hjoins
    obtain ⟨c, hc, rfl⟩ := List.mem_map.1 (h.source_mem hjoins.2)
    exact ⟨c, hc, b, hjoins, rfl⟩

end Graph

-- ---------------------------------------------------------------------------
-- Violations
-- ---------------------------------------------------------------------------

namespace StyleTable

variable {α : Type} [Scalar α] {t : StyleTable} {g : Graph α} {roles : NameMap Role}
  {a b : ComponentId}

theorem allowed_of_violations_eq_nil {judged : List (Judged α)} (h : t.violations judged = [])
    {j : Judged α} (hj : j ∈ judged) : j.verdict = .allowed := by
  have hnone := List.filterMap_eq_nil_iff.1 (List.mapIdx_eq_nil_iff.1 h) j hj
  split at hnone
  · assumption
  · cases hnone

omit [Scalar α] in
theorem endpoint?_eq_some {role : Role} (h : roles.get? a = some role) :
    ∃ e : Endpoint, endpoint? g roles a = some e ∧ e.role = role := by
  rw [endpoint?, h]
  exact ⟨_, rfl, rfl⟩

/-- Where nothing is violated, the rule allows every edge between components with roles. -/
theorem check_of_joins (hg : g.WellFormed) (hnone : t.violations (t.judge g roles) = [])
    (hjoins : g.Joins a b) (hne : a ≠ b) {source target : Endpoint}
    (ha : endpoint? g roles a = some source) (hb : endpoint? g roles b = some target) :
    (t.rule.check source target : Verdict α) = .allowed := by
  have hjudged : (⟨a, b, source.role, target.role, t.rule.check source target⟩ : Judged α) ∈
      t.judge g roles :=
    List.mem_filterMap.2 ⟨(a, b), hg.mem_arcs.2 ⟨hne, hjoins⟩, by simp [ha, hb]⟩
  exact allowed_of_violations_eq_nil hnone hjudged

-- ---------------------------------------------------------------------------
-- Paths
-- ---------------------------------------------------------------------------

/-- An edge joins the components and both have a role. -/
def JoinsClassified (g : Graph α) (roles : NameMap Role) (a b : ComponentId) : Prop :=
  g.Joins a b ∧ roles.contains a = true ∧ roles.contains b = true

theorem exists_role (h : roles.contains a = true) : ∃ role, roles.get? a = some role := by
  rw [NameMap.contains_eq_isSome_get?] at h
  exact Option.isSome_iff_exists.1 h

variable {chain : List Role} {ra rb : Role}

theorem role_of_joins (hg : g.WellFormed) (hrule : t.rule.DescendsAlong α chain)
    (hnone : t.violations (t.judge g roles) = []) (hjoins : g.Joins a b)
    (ha : roles.get? a = some ra) (hb : roles.get? b = some rb) :
    ra = rb ∨ chain.idxOf ra < chain.idxOf rb := by
  by_cases hab : a = b
  · -- A component's dependency on itself is not judged, and keeps the role.
    subst hab
    exact .inl (Option.some.inj (ha.symm.trans hb))
  · obtain ⟨source, hsource, rfl⟩ := endpoint?_eq_some (g := g) ha
    obtain ⟨target, htarget, rfl⟩ := endpoint?_eq_some (g := g) hb
    by_cases hroles : source.role = target.role
    · exact .inl hroles
    · exact .inr (hrule _ _ (check_of_joins hg hnone hjoins hab hsource htarget) hroles)

/-- Along a path of components with roles, the role stays or moves down the chain. -/
theorem role_of_path (hg : g.WellFormed) (hrule : t.rule.DescendsAlong α chain)
    (hnone : t.violations (t.judge g roles) = [])
    (hpath : Relation.ReflTransGen (JoinsClassified g roles) a b)
    (ha : roles.get? a = some ra) (hb : roles.get? b = some rb) :
    ra = rb ∨ chain.idxOf ra < chain.idxOf rb := by
  induction hpath generalizing rb with
  | refl => exact .inl (Option.some.inj (ha.symm.trans hb))
  | @tail c b _ hstep ih =>
    obtain ⟨hjoins, hc, _⟩ := hstep
    obtain ⟨rc, hrc⟩ := exists_role hc
    have hlast := role_of_joins hg hrule hnone hjoins hrc hb
    rcases ih hrc with rfl | hlt
    · exact hlast
    · rcases hlast with rfl | hlt'
      · exact .inr hlt
      · exact .inr (hlt.trans hlt')

/-- Components with roles that lie on one cycle have the same role. -/
theorem role_eq_of_cycle (hg : g.WellFormed) (hrule : t.rule.DescendsAlong α chain)
    (hnone : t.violations (t.judge g roles) = [])
    (hab : Relation.ReflTransGen (JoinsClassified g roles) a b)
    (hba : Relation.ReflTransGen (JoinsClassified g roles) b a)
    (ha : roles.get? a = some ra) (hb : roles.get? b = some rb) : ra = rb := by
  rcases role_of_path hg hrule hnone hab ha hb with heq | hlt
  · exact heq
  · rcases role_of_path hg hrule hnone hba hb ha with heq | hlt'
    · exact heq.symm
    · exact absurd hlt' (Nat.lt_asymm hlt)

omit [Scalar α] in
/-- Members of a group whose members all have roles are joined through such members. -/
theorem path_of_mem_members (hg : g.WellFormed) {group : CycleGroup} (hgroup : group ∈ g.cycles)
    (hall : ∀ m ∈ group.members, roles.contains m = true)
    (ha : a ∈ group.members) (hb : b ∈ group.members) :
    Relation.ReflTransGen (JoinsClassified g roles) a b := by
  have hmutual := (hg.mem_members_iff hgroup ha).1 hb
  refine Relation.ReflTransGen.mono ?_ _ _ (Graph.Mutual.path_within hmutual.1 hmutual.2)
  rintro x y ⟨hjoins, hx, hy⟩
  exact ⟨hjoins, hall x ((hg.mem_members_iff hgroup ha).2 hx),
    hall y ((hg.mem_members_iff hgroup ha).2 hy)⟩

-- ---------------------------------------------------------------------------
-- Styles
-- ---------------------------------------------------------------------------

/-- The roles of a style from those that depend to those depended on; services may
    depend on each other both ways and have no such order. -/
def dependencyOrder : StyleKind → List Role
  | .layered => [.controller, .service, .repository]
  | .hexagonal => [.adapter, .port, .infrastructure, .domain]
  | .clean => [.framework, .interfaceAdapter, .useCase, .entity]
  | .microservices => []
  | .eventDriven => [.producer, .broker, .consumer]

theorem descendsAlong_dependencyOrder {kind : StyleKind} (hkind : kind ≠ .microservices) :
    (ofKind kind).rule.DescendsAlong α (dependencyOrder kind) := by
  cases kind with
  | layered => exact EdgeRule.descendsAlong_adjacentDownward _
  | hexagonal => exact EdgeRule.descendsAlong_pairs (by decide)
  | clean => exact EdgeRule.descendsAlong_inward _
  | microservices => exact absurd rfl hkind
  | eventDriven => exact EdgeRule.descendsAlong_pairs (by decide)

/-- In every style with an order of roles: without violations, a cycle group whose
    members all have roles has one role; and a cycle through components with roles
    that meets two roles makes a layer violation. -/
theorem one_role_per_cycle {kind : StyleKind} (hkind : kind ≠ .microservices)
    {records : List ComponentRecord} {build : GraphBuild α}
    (hbuild : GraphBuild.ofRecords records = .ok build) (config : StyleConfig α)
    (intents : List (IntentResult α)) :
    let result := (ofKind kind).detect config build.graph intents
    (result.violations = [] →
      ∀ group ∈ build.graph.cycles,
        (∀ m ∈ group.members, result.roleAssignment.contains m = true) →
        ∃ role, ∀ m ∈ group.members, result.roleAssignment.get? m = some role) ∧
    (∀ a b ra rb,
      Relation.ReflTransGen (JoinsClassified build.graph result.roleAssignment) a b →
      Relation.ReflTransGen (JoinsClassified build.graph result.roleAssignment) b a →
      result.roleAssignment.get? a = some ra → result.roleAssignment.get? b = some rb →
      ra ≠ rb → ∃ v ∈ result.violations, v.kind = .layerViolation) := by
  intro result
  have hg := GraphBuild.wellFormed_of_ofRecords hbuild
  have hrule := descendsAlong_dependencyOrder (α := α) hkind
  have hviolations : result.violations =
      (ofKind kind).violations ((ofKind kind).judge build.graph result.roleAssignment) :=
    violations_detect _ config build.graph intents
  rw [hviolations]
  refine ⟨fun hnone group hgroup hall => ?_, fun a b ra rb hab hba ha hb hne => ?_⟩
  · obtain ⟨first, hfirst⟩ := Graph.exists_mem_members hgroup
    obtain ⟨role, hrole⟩ := exists_role (hall first hfirst)
    refine ⟨role, fun m hm => ?_⟩
    obtain ⟨role', hrole'⟩ := exists_role (hall m hm)
    rw [hrole', role_eq_of_cycle hg hrule hnone (path_of_mem_members hg hgroup hall hm hfirst)
      (path_of_mem_members hg hgroup hall hfirst hm) hrole' hrole]
  · obtain ⟨v, hv⟩ := List.exists_mem_of_ne_nil _ fun hnone =>
      hne (role_eq_of_cycle hg hrule hnone hab hba ha hb)
    exact ⟨v, hv, kind_of_mem_violations hv⟩

/-- Two components that import each other. -/
def mutualImports (a b : String) : List ComponentRecord :=
  [⟨a, a, a, 1, .empty, .empty, [⟨b, .imports, []⟩], false, false⟩,
   ⟨b, b, b, 1, .empty, .empty, [⟨a, .imports, []⟩], false, false⟩]

/-- What is made of them if the first name comes first. -/
def mutualBuild (a b : String) : GraphBuild Float :=
  .ofSorted (mutualImports a b)

/-- The layered style of two components that import each other. -/
def mutualResult (a b : String) : StyleResult Float :=
  (ofKind .layered).detect (.standard Float) (mutualBuild a b).graph []

/-- Two controllers that import each other share a role; a repository and a
    controller that do so make a violation. -/
theorem one_role_per_cycle_mutualImports :
    (GraphBuild.ofRecords (mutualImports "ui" "web") = .ok (mutualBuild "ui" "web") ∧
      ∃ group ∈ (mutualBuild "ui" "web").graph.cycles, "web" ∈ group.members ∧
        ∃ role, ∀ m ∈ group.members,
          (mutualResult "ui" "web").roleAssignment.get? m = some role) ∧
    (GraphBuild.ofRecords (mutualImports "db" "ui") = .ok (mutualBuild "db" "ui") ∧
      ∃ v ∈ (mutualResult "db" "ui").violations, v.kind = .layerViolation) := by
  have hsame : GraphBuild.ofRecords (mutualImports "ui" "web") = .ok (mutualBuild "ui" "web") :=
    GraphBuild.ofRecords_of_ascending (by decide) (by decide)
  have hmixed : GraphBuild.ofRecords (mutualImports "db" "ui") = .ok (mutualBuild "db" "ui") :=
    GraphBuild.ofRecords_of_ascending (by decide) (by decide)
  refine ⟨⟨hsame, ?_⟩, ⟨hmixed, ?_⟩⟩
  · have hg := GraphBuild.wellFormed_of_ofRecords hsame
    have hids : (mutualBuild "ui" "web").graph.ids = ["ui", "web"] := by decide +kernel
    have hedges : (mutualBuild "ui" "web").graph.hasEdge "ui" "web" = true ∧
        (mutualBuild "ui" "web").graph.hasEdge "web" "ui" = true := by decide +kernel
    have hroles : (mutualResult "ui" "web").violations = [] ∧
        ∀ m ∈ ["ui", "web"], (mutualResult "ui" "web").roleAssignment.contains m = true := by
      decide +kernel
    have hui : "ui" ∈ (mutualBuild "ui" "web").graph.ids := by rw [hids]; decide
    obtain ⟨group, hgroup, hfirst, hsecond⟩ := hg.exists_group hui
      ⟨.single (Graph.hasEdge_iff.1 hedges.1), .single (Graph.hasEdge_iff.1 hedges.2)⟩ (by decide)
    refine ⟨group, hgroup, hsecond, (one_role_per_cycle (by decide) hsame (.standard Float) []).1
      hroles.1 group hgroup fun m hm => hroles.2 m ?_⟩
    rw [← hids]
    exact hg.mem_of_reaches hui ((hg.mem_members_iff hgroup hfirst).1 hm).1
  · have hedges : (mutualBuild "db" "ui").graph.hasEdge "db" "ui" = true ∧
        (mutualBuild "db" "ui").graph.hasEdge "ui" "db" = true := by decide +kernel
    have hroles : (mutualResult "db" "ui").roleAssignment.get? "db" = some .repository ∧
        (mutualResult "db" "ui").roleAssignment.get? "ui" = some .controller := by decide +kernel
    have hdb : (mutualResult "db" "ui").roleAssignment.contains "db" = true := by
      rw [NameMap.contains_eq_isSome_get?, hroles.1]; rfl
    have hui : (mutualResult "db" "ui").roleAssignment.contains "ui" = true := by
      rw [NameMap.contains_eq_isSome_get?, hroles.2]; rfl
    exact (one_role_per_cycle (by decide) hmixed (.standard Float) []).2 "db" "ui" _ _
      (.single ⟨Graph.hasEdge_iff.1 hedges.1, hdb, hui⟩)
      (.single ⟨Graph.hasEdge_iff.1 hedges.2, hui, hdb⟩) hroles.1 hroles.2 (by decide)

end StyleTable

end ArchAudit
