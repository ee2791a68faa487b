-- SUMMARY: Coupling counts edges, so one dependent that depends in two ways counts as two.
import ArchAudit.Proofs.Reachability
import ArchAudit.Role.Basic

/-!
# Dependents

The metrics of a component count the edges between it and other components. There is an edge
for each kind of reference, so a component that both imports and calls another arrives there
twice. The hints that ask for two dependents look at that count: they hold where two
components depend on one, and also where a single one depends on it in two ways.
-/

namespace ArchAudit

namespace Graph

variable {α : Type} {g : Graph α} {a b : ComponentId}

-- ---------------------------------------------------------------------------
-- Dependencies
-- ---------------------------------------------------------------------------

/-- The first is another component than the second and has an edge to it. -/
def DependsOn (g : Graph α) (a b : ComponentId) : Prop :=
  a ≠ b ∧ g.Joins a b

/-- At least two distinct components depend on the component. -/
def HasTwoDependents (g : Graph α) (id : ComponentId) : Prop :=
  ∃ a b, a ≠ b ∧ g.DependsOn a id ∧ g.DependsOn b id

/-- One component depends on the component by edges of two kinds. -/
def HasTwofoldDependent (g : Graph α) (id : ComponentId) : Prop :=
  ∃ a ≠ id, ∃ e ∈ g.edges, ∃ f ∈ g.edges, e.kind ≠ f.kind ∧
    (e.source = a ∧ e.target = id) ∧ f.source = a ∧ f.target = id

/-- The edges that arrive at a component from other components. -/
def arrivals (g : Graph α) (id : ComponentId) : List Edge :=
  g.dependencyEdges.filter (·.target == id)

/-- The edges that lead from a component to other components. -/
def departures (g : Graph α) (id : ComponentId) : List Edge :=
  g.dependencyEdges.filter (·.source == id)

theorem mem_arrivals {e : Edge} : e ∈ g.arrivals b ↔ e ∈ g.edges ∧ e.source ≠ b ∧ e.target = b := by
  simp only [arrivals, dependencyEdges, List.mem_filter, Edge.isSelfLoop, Bool.not_eq_true',
    beq_eq_false_iff_ne, beq_iff_eq, and_assoc]
  refine and_congr_right fun _ => ⟨?_, ?_⟩
  · rintro ⟨hne, rfl⟩
    exact ⟨hne, rfl⟩
  · rintro ⟨hne, rfl⟩
    exact ⟨hne, rfl⟩

theorem departures_eq_nil : g.departures a = [] ↔ ∀ b, ¬ g.DependsOn a b := by
  simp only [departures, dependencyEdges, List.filter_filter, List.filter_eq_nil_iff,
    Edge.isSelfLoop, Bool.and_eq_true, Bool.not_eq_true', beq_eq_false_iff_ne, beq_iff_eq]
  constructor
  · rintro hnone b ⟨hne, e, he, rfl, rfl⟩
    exact hnone e he ⟨rfl, hne⟩
  · rintro hnone e he ⟨rfl, hne⟩
    exact hnone e.target ⟨hne, e, he, rfl, rfl⟩

/-- Two edges arrive if and only if they differ in where they come from or in kind. -/
theorem WellFormed.two_le_arrivals (hg : g.WellFormed) :
    2 ≤ (g.arrivals b).length ↔ g.HasTwoDependents b ∨ g.HasTwofoldDependent b := by
  have hpairwise : (g.arrivals b).Pairwise Edge.Before :=
    (hg.edgesAscending.filter _).filter _
  constructor
  · intro htwo
    obtain ⟨e, f, rest, harrivals⟩ : ∃ e f rest, g.arrivals b = e :: f :: rest := by
      match hlist : g.arrivals b with
      | [] => simp [hlist] at htwo
      | [_] => simp [hlist] at htwo
      | e :: f :: rest => exact ⟨e, f, rest, rfl⟩
    rw [harrivals] at hpairwise
    have hkey : e.key ≠ f.key := ((List.pairwise_cons.1 hpairwise).1 f (by simp)).key_ne
    obtain ⟨he, hsource, htarget⟩ := mem_arrivals.1 (harrivals ▸ by simp : e ∈ g.arrivals b)
    obtain ⟨hf, hsource', htarget'⟩ := mem_arrivals.1 (harrivals ▸ by simp : f ∈ g.arrivals b)
    by_cases hsame : e.source = f.source
    · right
      have hkind : e.kind ≠ f.kind := by
        intro hkind
        exact hkey (by rw [Edge.key, Edge.key, hsame, htarget, htarget', hkind])
      exact ⟨e.source, hsource, e, he, f, hf, hkind, ⟨rfl, htarget⟩, hsame.symm, htarget'⟩
    · left
      exact ⟨e.source, f.source, hsame, ⟨hsource, e, he, rfl, htarget⟩,
        ⟨hsource', f, hf, rfl, htarget'⟩⟩
  · intro hdependents
    obtain ⟨e, he, f, hf, hne⟩ : ∃ e ∈ g.arrivals b, ∃ f ∈ g.arrivals b, e ≠ f := by
      rcases hdependents with ⟨x, y, hxy, ⟨hx, e, he, rfl, rfl⟩, hy, f, hf, rfl, htarget⟩ |
        ⟨x, hx, e, he, f, hf, hkind, ⟨rfl, rfl⟩, hsource, htarget⟩
      · refine ⟨e, mem_arrivals.2 ⟨he, hx, rfl⟩, f, mem_arrivals.2 ⟨hf, hy, htarget⟩, ?_⟩
        rintro rfl
        exact hxy rfl
      · refine ⟨e, mem_arrivals.2 ⟨he, hx, rfl⟩, f,
          mem_arrivals.2 ⟨hf, hsource ▸ hx, htarget⟩, ?_⟩
        rintro rfl
        exact hkind rfl
    match hlist : g.arrivals b with
    | [] => simp [hlist] at he
    | [_] => simp_all
    | _ :: _ :: _ => simp

end Graph

-- ---------------------------------------------------------------------------
-- Metrics
-- ---------------------------------------------------------------------------

/-- The metrics of a component count what arrives and what departs. -/
theorem Graph.coupling_withMetrics {α : Type} [Scalar α] {g : Graph α} {c : Component α}
    (hc : c ∈ g.withMetrics.components) :
    c.metrics.afferent = (g.arrivals c.id).length ∧
      c.metrics.efferent = (g.departures c.id).length := by
  obtain ⟨i, hi, rfl⟩ := List.mem_iff_getElem.1 hc
  simp [withMetrics, metricsOf, arrivals, departures]

theorem GraphBuild.coupling_of_ofRecords {α : Type} [Scalar α] {records : List ComponentRecord}
    {build : GraphBuild α} (hbuild : ofRecords records = .ok build) {c : Component α}
    (hc : c ∈ build.graph.components) :
    c.metrics.afferent = (build.graph.arrivals c.id).length ∧
      c.metrics.efferent = (build.graph.departures c.id).length := by
  obtain ⟨_, rfl⟩ := ofRecords_eq_ok_iff.1 hbuild
  exact Graph.coupling_withMetrics (g := bareGraph (sortRecords records)) hc

-- ---------------------------------------------------------------------------
-- Hints
-- ---------------------------------------------------------------------------

namespace StructuralHint

theorem strength_ne_zero (h : StructuralHint) : (h.strength : Float) ≠ 0.0 := by
  cases h <;> decide +kernel

theorem bonus_ne_zero {h : StructuralHint} {c : Component Float} {signals : RoleSignals} :
    h.bonus c signals ≠ 0.0 ↔ h.holds c signals = true := by
  rw [bonus]
  split
  · simp_all [strength_ne_zero]
  · simp_all

/-- In the graph of accepted records, the hint of stability adds to a score exactly for
    components that depend on nothing, and the hint of abstraction exactly for well
    encapsulated ones that declare an abstraction, where in both cases either two components
    depend on the component or one does so in two ways. -/
theorem bonus_iff_dependents {records : List ComponentRecord} {build : GraphBuild Float}
    (hbuild : GraphBuild.ofRecords records = .ok build) {c : Component Float}
    (hc : c ∈ build.graph.components) (signals : RoleSignals) :
    (stable.bonus c signals ≠ 0.0 ↔ (∀ b, ¬ build.graph.DependsOn c.id b) ∧
      (build.graph.HasTwoDependents c.id ∨ build.graph.HasTwofoldDependent c.id)) ∧
    (abstraction.bonus c signals ≠ 0.0 ↔
      (c.declaresAbstraction = true ∧ signals.wellEncapsulated = true) ∧
      (build.graph.HasTwoDependents c.id ∨ build.graph.HasTwofoldDependent c.id)) := by
  obtain ⟨hafferent, hefferent⟩ := GraphBuild.coupling_of_ofRecords hbuild hc
  have htwo := (GraphBuild.wellFormed_of_ofRecords hbuild).two_le_arrivals (b := c.id)
  rw [bonus_ne_zero, bonus_ne_zero, ← htwo, ← Graph.departures_eq_nil, ← List.length_eq_zero_iff,
    ← hafferent, ← hefferent]
  refine ⟨by simp [holds], ?_⟩
  simp only [holds, Bool.and_eq_true, decide_eq_true_iff]
  exact and_right_comm

/-- The clock is called by two components. The storage, which declares an abstraction, is
    imported and called by one. -/
def clockRecords : List ComponentRecord :=
  let record (id name : String) (references : List Reference) (declares : Bool) :
      ComponentRecord :=
    ⟨id, name, "app/" ++ id ++ ".rs", 1, .empty, .empty, references, declares, false⟩
  [record "caller" "Caller"
     [⟨"clock", .calls, []⟩, ⟨"storage", .imports, []⟩, ⟨"storage", .calls, []⟩] false,
   record "clock" "Clock" [] false,
   record "logger" "Logger" [⟨"clock", .calls, []⟩] false,
   record "storage" "Storage" [] true]

theorem ofRecords_clockRecords :
    GraphBuild.ofRecords clockRecords = .ok (.ofSorted clockRecords : GraphBuild Float) :=
  GraphBuild.ofRecords_of_ascending (by decide +kernel) (by decide +kernel)

theorem joins_clockRecords {a b : ComponentId} :
    (GraphBuild.ofSorted clockRecords : GraphBuild Float).graph.Joins a b ↔
      (a, b) ∈ [("caller", "clock"), ("caller", "storage"), ("logger", "clock")] := by
  have hends : (GraphBuild.ofSorted clockRecords : GraphBuild Float).graph.edges.map
      (fun e => (e.source, e.target)) =
        [("caller", "clock"), ("caller", "storage"), ("caller", "storage"),
         ("logger", "clock")] := by
    decide +kernel
  have hmem : (GraphBuild.ofSorted clockRecords : GraphBuild Float).graph.Joins a b ↔
      (a, b) ∈ (GraphBuild.ofSorted clockRecords : GraphBuild Float).graph.edges.map
        fun e => (e.source, e.target) := by
    simp [Graph.Joins]
  rw [hmem, hends]
  simp

theorem bonus_iff_dependents_clockRecords :
    ∃ build : GraphBuild Float, GraphBuild.ofRecords clockRecords = .ok build ∧
      ∃ c ∈ build.graph.components, build.graph.HasTwoDependents c.id ∧
        (∀ b, ¬ build.graph.DependsOn c.id b) ∧ stable.bonus c ⟨false, false⟩ ≠ 0.0 := by
  have hmem : ∃ c ∈ (GraphBuild.ofSorted clockRecords : GraphBuild Float).graph.components,
      c.id = "clock" := by
    decide +kernel
  obtain ⟨c, hc, hid⟩ := hmem
  have hnone : ∀ b,
      ¬ (GraphBuild.ofSorted clockRecords : GraphBuild Float).graph.DependsOn c.id b := by
    rintro b ⟨-, hjoins⟩
    rw [hid, joins_clockRecords] at hjoins
    simp at hjoins
  have htwo :
      (GraphBuild.ofSorted clockRecords : GraphBuild Float).graph.HasTwoDependents c.id := by
    rw [hid]
    exact ⟨"caller", "logger", by decide, ⟨by decide, joins_clockRecords.2 (by simp)⟩,
      by decide, joins_clockRecords.2 (by simp)⟩
  exact ⟨_, ofRecords_clockRecords, c, hc, htwo, hnone,
    (bonus_iff_dependents ofRecords_clockRecords hc _).1.2 ⟨hnone, .inl htwo⟩⟩

/-- Both hints add to the score of the storage, although only the caller depends on it. -/
theorem hints_hold_for_one_dependent :
    ∃ build : GraphBuild Float, GraphBuild.ofRecords clockRecords = .ok build ∧
      ∃ c ∈ build.graph.components,
        stable.bonus c ⟨true, false⟩ ≠ 0.0 ∧ abstraction.bonus c ⟨true, false⟩ ≠ 0.0 ∧
        (∀ a, build.graph.DependsOn a c.id → a = "caller") ∧
        ¬ build.graph.HasTwoDependents c.id := by
  have hmem : ∃ c ∈ (GraphBuild.ofSorted clockRecords : GraphBuild Float).graph.components,
      c.id = "storage" ∧ stable.bonus c ⟨true, false⟩ ≠ 0.0 ∧
        abstraction.bonus c ⟨true, false⟩ ≠ 0.0 := by
    decide +kernel
  obtain ⟨c, hc, hid, hstable, habstraction⟩ := hmem
  have honly : ∀ a, (GraphBuild.ofSorted clockRecords : GraphBuild Float).graph.DependsOn a c.id →
      a = "caller" := by
    rintro a ⟨-, hjoins⟩
    rw [hid, joins_clockRecords] at hjoins
    simpa using hjoins
  refine ⟨_, ofRecords_clockRecords, c, hc, hstable, habstraction, honly, ?_⟩
  rintro ⟨a, b, hne, ha, hb⟩
  exact hne ((honly a ha).trans (honly b hb).symm)

end StructuralHint

end ArchAudit
