-- SUMMARY: Coupling adds up to the number of edges, and degree centrality counts distinct neighbours.
import ArchAudit.Proofs.Dependents
import ArchAudit.Proofs.RoleCycles
import Mathlib.Algebra.BigOperators.Group.Finset.Piecewise
import Mathlib.Algebra.GroupWithZero.Nat

/-!
# Degrees

Coupling counts edges, of which there may be three from one component to another, one per
kind. Degree centrality counts neighbours, and is computed on positions instead of ids. Both
see the same dependencies: every edge between distinct components arrives once and departs
once, and the position of a component has the neighbours of the component.
-/

namespace ArchAudit

-- ---------------------------------------------------------------------------
-- Neighbours
-- ---------------------------------------------------------------------------

namespace Graph

variable {α : Type} {g : Graph α} {a b : ComponentId}

/-- The distinct components that a component depends on. -/
def outNeighbours (g : Graph α) (id : ComponentId) : Finset ComponentId :=
  ((g.departures id).map (·.target)).toFinset

/-- The distinct components that depend on a component. -/
def inNeighbours (g : Graph α) (id : ComponentId) : Finset ComponentId :=
  ((g.arrivals id).map (·.source)).toFinset

/-- The neighbours in both directions; one that is both counts twice. -/
def neighbourCount (g : Graph α) (id : ComponentId) : Nat :=
  (g.outNeighbours id).card + (g.inNeighbours id).card

theorem mem_departures {e : Edge} :
    e ∈ g.departures a ↔ e ∈ g.edges ∧ e.source = a ∧ e.target ≠ a := by
  simp only [departures, dependencyEdges, List.mem_filter, Edge.isSelfLoop, Bool.not_eq_true',
    beq_eq_false_iff_ne, beq_iff_eq, and_assoc]
  refine and_congr_right fun _ => ⟨?_, ?_⟩
  · rintro ⟨hne, rfl⟩
    exact ⟨rfl, hne.symm⟩
  · rintro ⟨rfl, hne⟩
    exact ⟨hne.symm, rfl⟩

theorem mem_outNeighbours : b ∈ g.outNeighbours a ↔ g.DependsOn a b := by
  simp only [outNeighbours, List.mem_toFinset, List.mem_map, mem_departures, DependsOn, Joins]
  constructor
  · rintro ⟨e, ⟨he, hsource, htarget⟩, rfl⟩
    exact ⟨htarget.symm, e, he, hsource, rfl⟩
  · rintro ⟨hne, e, he, hsource, rfl⟩
    exact ⟨e, ⟨he, hsource, hne.symm⟩, rfl⟩

theorem mem_inNeighbours : a ∈ g.inNeighbours b ↔ g.DependsOn a b := by
  simp only [inNeighbours, List.mem_toFinset, List.mem_map, mem_arrivals, DependsOn, Joins]
  constructor
  · rintro ⟨e, ⟨he, hsource, htarget⟩, rfl⟩
    exact ⟨hsource, e, he, rfl, htarget⟩
  · rintro ⟨hne, e, he, rfl, htarget⟩
    exact ⟨e, ⟨he, hne, htarget⟩, rfl⟩

-- ---------------------------------------------------------------------------
-- Neighbours and edges
-- ---------------------------------------------------------------------------

theorem card_neighbours_le (g : Graph α) (id : ComponentId) :
    (g.outNeighbours id).card ≤ (g.departures id).length ∧
      (g.inNeighbours id).card ≤ (g.arrivals id).length :=
  ⟨(List.toFinset_card_le _).trans_eq (List.length_map _),
    (List.toFinset_card_le _).trans_eq (List.length_map _)⟩

/-- Edges that are told apart by an end and their kind are at most three per end. -/
theorem length_le_three_mul {edges : List Edge} {f : Edge → ComponentId}
    (h : (edges.map fun e => (f e, e.kind)).Nodup) :
    edges.length ≤ 3 * (edges.map f).toFinset.card := by
  let kinds : Finset EdgeKind := {.imports, .calls, .inherits}
  have hkinds : kinds.card = 3 := rfl
  have hsubset : (edges.map fun e => (f e, e.kind)).toFinset ⊆ (edges.map f).toFinset ×ˢ kinds := by
    intro p hp
    obtain ⟨e, he, rfl⟩ := List.mem_map.1 (List.mem_toFinset.1 hp)
    have hkind : e.kind ∈ kinds := by cases e.kind <;> decide
    exact Finset.mem_product.2 ⟨List.mem_toFinset.2 (List.mem_map_of_mem he), hkind⟩
  calc edges.length = (edges.map fun e => (f e, e.kind)).toFinset.card := by
        rw [List.toFinset_card_of_nodup h, List.length_map]
    _ ≤ ((edges.map f).toFinset ×ˢ kinds).card := Finset.card_le_card hsubset
    _ = 3 * (edges.map f).toFinset.card := by rw [Finset.card_product, hkinds, Nat.mul_comm]

theorem nodup_dependencies (g : Graph α) (id : ComponentId) : (g.dependencies id).Nodup :=
  nodup_ascendingNames _

namespace WellFormed

theorem nodup_keys (hg : g.WellFormed) : (g.edges.map (·.key)).Nodup :=
  List.pairwise_map.2 (hg.edgesAscending.imp Edge.Before.key_ne)

/-- Whatever determines the keys of some edges tells them apart. -/
theorem nodup_map {β : Type} (hg : g.WellFormed) {edges : List Edge} (hsub : edges.Sublist g.edges)
    {f : Edge → β} (hf : ∀ e ∈ edges, ∀ e' ∈ edges, f e = f e' → e.key = e'.key) :
    (edges.map f).Nodup := by
  refine List.Nodup.map_on ?_ (hsub.nodup (List.Nodup.of_map _ hg.nodup_keys))
  intro e he e' he' heq
  have hkey := hf e he e' he' heq
  exact List.inj_on_of_nodup_map hg.nodup_keys (hsub.subset he) (hsub.subset he') hkey

theorem length_departures_le (hg : g.WellFormed) (id : ComponentId) :
    (g.departures id).length ≤ 3 * (g.outNeighbours id).card := by
  apply length_le_three_mul
  refine hg.nodup_map (List.filter_sublist.trans List.filter_sublist) fun e he e' he' heq => ?_
  obtain ⟨htarget, hkind⟩ := Prod.mk.inj heq
  rw [Edge.key, Edge.key, (mem_departures.1 he).2.1, (mem_departures.1 he').2.1, htarget, hkind]

theorem length_arrivals_le (hg : g.WellFormed) (id : ComponentId) :
    (g.arrivals id).length ≤ 3 * (g.inNeighbours id).card := by
  apply length_le_three_mul
  refine hg.nodup_map (List.filter_sublist.trans List.filter_sublist) fun e he e' he' heq => ?_
  obtain ⟨hsource, hkind⟩ := Prod.mk.inj heq
  rw [Edge.key, Edge.key, (mem_arrivals.1 he).2.2, (mem_arrivals.1 he').2.2, hsource, hkind]

/-- A component has no more neighbours than there are other components. -/
theorem neighbourCount_le (hg : g.WellFormed) {id : ComponentId} (hid : id ∈ g.ids) :
    g.neighbourCount id ≤ 2 * (g.size - 1) := by
  have hothers : (g.ids.toFinset.erase id).card = g.size - 1 := by
    rw [Finset.card_erase_of_mem (List.mem_toFinset.2 hid),
      List.toFinset_card_of_nodup hg.nodup_ids, ids, List.length_map, size]
  have hout : g.outNeighbours id ⊆ g.ids.toFinset.erase id := by
    intro b hb
    obtain ⟨hne, hjoins⟩ := mem_outNeighbours.1 hb
    exact Finset.mem_erase.2 ⟨hne.symm, List.mem_toFinset.2 (hg.target_mem hjoins)⟩
  have hin : g.inNeighbours id ⊆ g.ids.toFinset.erase id := by
    intro a ha
    obtain ⟨hne, hjoins⟩ := mem_inNeighbours.1 ha
    exact Finset.mem_erase.2 ⟨hne, List.mem_toFinset.2 (hg.source_mem hjoins)⟩
  have hout := hothers ▸ Finset.card_le_card hout
  have hin := hothers ▸ Finset.card_le_card hin
  rw [neighbourCount]
  omega

-- ---------------------------------------------------------------------------
-- Positions
-- ---------------------------------------------------------------------------

/-- The position of a component occurs among those of some dependencies if the component
    is one of them. -/
theorem mem_positions (hg : g.WellFormed) {i : Nat} (ha : g.ids[i]? = some a) (c : ComponentId) :
    i ∈ (g.dependencies c).map (g.ids.idxOf ·) ↔ a ∈ g.dependencies c := by
  obtain ⟨hi, ha⟩ := List.getElem?_eq_some_iff.1 ha
  rw [List.mem_map]
  constructor
  · rintro ⟨b, hb, rfl⟩
    rw [List.getElem_idxOf] at ha
    exact ha ▸ hb
  · intro hmem
    exact ⟨a, hmem, by rw [← ha, hg.nodup_ids.idxOf_getElem i hi]⟩

theorem nodup_positions (hg : g.WellFormed) (c : ComponentId) :
    ((g.dependencies c).map (g.ids.idxOf ·)).Nodup := by
  refine List.Nodup.map_on ?_ (g.nodup_dependencies c)
  intro a ha b _ heq
  exact (List.idxOf_inj (hg.target_mem (mem_dependencies.1 ha).2)).1 heq

end WellFormed

theorem successors_adjacency {i : Nat} (ha : g.ids[i]? = some a) :
    g.adjacency.successors i = (g.dependencies a).map (g.ids.idxOf ·) := by
  simp [adjacency, Adjacency.successors, ha]

theorem card_outNeighbours : (g.outNeighbours a).card = (g.dependencies a).length := by
  rw [← List.toFinset_card_of_nodup (g.nodup_dependencies a)]
  congr 1
  ext b
  rw [mem_outNeighbours, DependsOn, ← mem_dependencies, List.mem_toFinset]

namespace WellFormed

/-- The component's position occurs once per dependent among all arcs. -/
theorem count_adjacency (hg : g.WellFormed) {i : Nat} (ha : g.ids[i]? = some a) :
    g.adjacency.toList.flatten.count i = (g.inNeighbours a).card := by
  have hrow (c : ComponentId) : ((g.dependencies c).map (g.ids.idxOf ·)).count i =
      if a ∈ g.dependencies c then 1 else 0 := by
    rw [(hg.nodup_positions c).count]
    exact if_congr (hg.mem_positions ha c) rfl rfl
  have hdependents : g.ids.toFinset.filter (a ∈ g.dependencies ·) = g.inNeighbours a := by
    ext c
    rw [Finset.mem_filter, List.mem_toFinset, mem_dependencies, mem_inNeighbours, DependsOn]
    exact ⟨fun h => h.2, fun h => ⟨hg.source_mem h.2, h⟩⟩
  calc g.adjacency.toList.flatten.count i
    _ = (g.ids.map fun c => ((g.dependencies c).map (g.ids.idxOf ·)).count i).sum := by
        simp only [adjacency, List.count_flatten, List.map_map, Function.comp_def]
    _ = ∑ c ∈ g.ids.toFinset, if a ∈ g.dependencies c then 1 else 0 := by
        simp only [hrow, List.sum_toFinset _ hg.nodup_ids]
    _ = (g.inNeighbours a).card := by rw [← Finset.card_filter, hdependents]

theorem degree_adjacency (hg : g.WellFormed) {i : Nat} (ha : g.ids[i]? = some a) :
    g.adjacency.degree i = g.neighbourCount a := by
  rw [Adjacency.degree, successors_adjacency ha, List.length_map, ← card_outNeighbours,
    hg.count_adjacency ha, neighbourCount]

/-- A position has arcs to the positions of the components that its component depends on. -/
theorem mem_successors_adjacency (hg : g.WellFormed) {i j : Nat} (ha : g.ids[i]? = some a)
    (hb : g.ids[j]? = some b) : j ∈ g.adjacency.successors i ↔ g.DependsOn a b := by
  rw [successors_adjacency ha, hg.mem_positions hb, mem_dependencies, DependsOn]

end WellFormed

-- ---------------------------------------------------------------------------
-- Sums
-- ---------------------------------------------------------------------------

/-- Things that fall into distinct classes are counted once class by class. -/
theorem sum_length_filter {β γ : Type} [DecidableEq γ] {classes : List γ} (hclasses : classes.Nodup)
    {l : List β} {f : β → γ} (hf : ∀ b ∈ l, f b ∈ classes) :
    (classes.map fun c => (l.filter (f · == c)).length).sum = l.length := by
  have hcount (c : γ) : (l.filter (f · == c)).length = (l.map f : Multiset γ).count c := by
    rw [Multiset.coe_count, List.count_eq_countP, List.countP_map, List.countP_eq_length_filter]
    rfl
  have hmem : ∀ c ∈ (l.map f : Multiset γ), c ∈ classes.toFinset := by
    intro c hc
    obtain ⟨b, hb, rfl⟩ := List.mem_map.1 (Multiset.mem_coe.1 hc)
    exact List.mem_toFinset.2 (hf b hb)
  simp only [hcount]
  rw [← List.sum_toFinset _ hclasses, Multiset.sum_count_eq_card hmem, Multiset.coe_card,
    List.length_map]

theorem WellFormed.sum_arrivals (hg : g.WellFormed) :
    (g.ids.map fun id => (g.arrivals id).length).sum = g.dependencyEdges.length :=
  sum_length_filter hg.nodup_ids fun e he => hg.targetMem e (List.mem_of_mem_filter he)

theorem WellFormed.sum_departures (hg : g.WellFormed) :
    (g.ids.map fun id => (g.departures id).length).sum = g.dependencyEdges.length :=
  sum_length_filter hg.nodup_ids fun e he => hg.sourceMem e (List.mem_of_mem_filter he)

end Graph

-- ---------------------------------------------------------------------------
-- Metrics
-- ---------------------------------------------------------------------------

theorem Adjacency.getElem?_degreeCentrality {α : Type} [Scalar α] (g : Adjacency) {i : Nat}
    (hi : i < g.size) (hsize : 2 ≤ g.size) : (g.degreeCentrality : List α)[i]? =
      some ((g.degree i : α) / (2.0 * ((g.size - 1 : Nat) : α))) := by
  rw [degreeCentrality, if_neg (Nat.not_lt.2 hsize), List.getElem?_map, List.getElem?_range hi]
  rfl

namespace Graph

variable {α : Type} [Scalar α] {g : Graph α}

theorem adjacency_withMetrics (g : Graph α) : g.withMetrics.adjacency = g.adjacency := by
  simp only [adjacency, ids_withMetrics]
  rfl

/-- The metrics of a component use the centralities at its own position. -/
theorem metrics_withMetrics {i : Nat} {c : Component α}
    (hc : g.withMetrics.components[i]? = some c) :
    ∃ degree betweenness, (g.adjacency.degreeCentrality : List α)[i]? = some degree ∧
      (g.adjacency.betweennessCentrality : List α)[i]? = some betweenness ∧
      c.metrics = g.metricsOf c.id degree betweenness := by
  simp only [withMetrics, List.getElem?_zipWith_eq_some, List.getElem?_zip_eq_some] at hc
  obtain ⟨bare, ⟨degree, betweenness⟩, _, ⟨hdegree, hbetweenness⟩, rfl⟩ := hc
  exact ⟨degree, betweenness, hdegree, hbetweenness, rfl⟩

/-- The metrics of a component are those of its own edges and neighbours, and its
    betweenness is that of a position with the same neighbours. -/
structure CountsOwnEdges (g : Graph α) (c : Component α) : Prop where
  afferent : c.metrics.afferent = g.edges.countP fun e => e.target = c.id ∧ e.source ≠ c.id
  efferent : c.metrics.efferent = g.edges.countP fun e => e.source = c.id ∧ e.target ≠ c.id
  instability : c.metrics.instability =
    if c.metrics.afferent + c.metrics.efferent = 0 then 0.5
    else (c.metrics.efferent : α) / ((c.metrics.afferent + c.metrics.efferent : Nat) : α)
  degree : 2 ≤ g.size → c.metrics.degreeCentrality =
    (g.neighbourCount c.id : α) / (2.0 * ((g.size - 1 : Nat) : α))
  neighbourCount_le : g.neighbourCount c.id ≤ 2 * (g.size - 1)
  neighbourCount_le_coupling : g.neighbourCount c.id ≤ c.metrics.afferent + c.metrics.efferent
  coupling_le : c.metrics.afferent + c.metrics.efferent ≤ 3 * g.neighbourCount c.id
  betweenness : ∃ i, g.components[i]? = some c ∧
    (g.adjacency.betweennessCentrality : List α)[i]? = some c.metrics.betweennessCentrality ∧
    ∀ (j : Nat) b, g.ids[j]? = some b → (j ∈ g.adjacency.successors i ↔ g.DependsOn c.id b)

omit [Scalar α] in
theorem length_arrivals (g : Graph α) (id : ComponentId) :
    (g.arrivals id).length = g.edges.countP fun e => e.target = id ∧ e.source ≠ id := by
  rw [arrivals, dependencyEdges, List.filter_filter, ← List.countP_eq_length_filter]
  refine List.countP_congr fun e _ => ?_
  simp only [Edge.isSelfLoop, Bool.and_eq_true, beq_iff_eq, Bool.not_eq_true', beq_eq_false_iff_ne,
    decide_eq_true_iff]
  exact and_congr_right fun h => h ▸ Iff.rfl

omit [Scalar α] in
theorem length_departures (g : Graph α) (id : ComponentId) :
    (g.departures id).length = g.edges.countP fun e => e.source = id ∧ e.target ≠ id := by
  rw [departures, dependencyEdges, List.filter_filter, ← List.countP_eq_length_filter]
  refine List.countP_congr fun e _ => ?_
  simp only [Edge.isSelfLoop, Bool.and_eq_true, beq_iff_eq, Bool.not_eq_true', beq_eq_false_iff_ne,
    decide_eq_true_iff]
  exact and_congr_right fun h => h ▸ ne_comm

omit [Scalar α] in
theorem length_dependencyEdges (g : Graph α) :
    g.dependencyEdges.length = g.edges.countP fun e => e.source ≠ e.target := by
  rw [dependencyEdges, ← List.countP_eq_length_filter]
  refine List.countP_congr fun e _ => ?_
  simp [Edge.isSelfLoop]

theorem WellFormed.countsOwnEdges (hg : g.withMetrics.WellFormed) {c : Component α}
    (hc : c ∈ g.withMetrics.components) : g.withMetrics.CountsOwnEdges c := by
  obtain ⟨hafferent, hefferent⟩ : c.metrics.afferent = (g.withMetrics.arrivals c.id).length ∧
      c.metrics.efferent = (g.withMetrics.departures c.id).length :=
    coupling_withMetrics (g := g) hc
  obtain ⟨i, hi⟩ := List.mem_iff_getElem?.1 hc
  obtain ⟨degree, betweenness, hdegree, hbetweenness, hmetrics⟩ := metrics_withMetrics hi
  have hid : g.withMetrics.ids[i]? = some c.id := by rw [ids, List.getElem?_map, hi]; rfl
  obtain ⟨hout, hin⟩ := g.withMetrics.card_neighbours_le c.id
  have hdepartures := hg.length_departures_le c.id
  have harrivals := hg.length_arrivals_le c.id
  refine
    { afferent := by rw [hafferent, length_arrivals]
      efferent := by rw [hefferent, length_departures]
      instability := by rw [hmetrics]; rfl
      degree := fun hsize => ?_
      neighbourCount_le := hg.neighbourCount_le (List.mem_of_getElem? hid)
      neighbourCount_le_coupling := by rw [hafferent, hefferent, neighbourCount]; omega
      coupling_le := by rw [hafferent, hefferent, neighbourCount]; omega
      betweenness := ⟨i, hi, ?_, fun j b hb => hg.mem_successors_adjacency hid hb⟩ }
  · have hlt : i < g.withMetrics.size := (List.getElem?_eq_some_iff.1 hi).1
    have hentry := g.withMetrics.adjacency.getElem?_degreeCentrality (α := α)
      (by rwa [size_adjacency]) (by rwa [size_adjacency])
    rw [adjacency_withMetrics, hdegree, ← adjacency_withMetrics, size_adjacency,
      hg.degree_adjacency hid] at hentry
    rw [hmetrics]
    exact Option.some.inj hentry
  · rw [adjacency_withMetrics, hbetweenness, hmetrics]
    rfl

end Graph

namespace GraphBuild

variable {α : Type} [Scalar α] {records : List ComponentRecord} {build : GraphBuild α}

/-- In a built graph, what arrives at all components and what departs from all of them are
    both the edges between distinct components, and the metrics of each component are those
    of its own edges and neighbours. -/
theorem metrics_account_for_edges (hbuild : ofRecords records = .ok build) :
    (build.graph.components.map (·.metrics.afferent)).sum =
      build.graph.edges.countP (fun e => e.source ≠ e.target) ∧
    (build.graph.components.map (·.metrics.efferent)).sum =
      build.graph.edges.countP (fun e => e.source ≠ e.target) ∧
    ∀ c ∈ build.graph.components, build.graph.CountsOwnEdges c := by
  have hg := wellFormed_of_ofRecords hbuild
  have hcoupling := fun c => coupling_of_ofRecords (c := c) hbuild
  refine ⟨?_, ?_, ?_⟩
  · rw [← Graph.length_dependencyEdges, ← hg.sum_arrivals, Graph.ids, List.map_map]
    exact congrArg List.sum (List.map_congr_left fun c hc => (hcoupling c hc).1)
  · rw [← Graph.length_dependencyEdges, ← hg.sum_departures, Graph.ids, List.map_map]
    exact congrArg List.sum (List.map_congr_left fun c hc => (hcoupling c hc).2)
  · intro c hc
    obtain ⟨_, rfl⟩ := ofRecords_eq_ok_iff.1 hbuild
    exact Graph.WellFormed.countsOwnEdges hg hc

/-- The parser depends on the lexer in all three ways and on itself, the lexer calls the
    parser, and the printer stands alone. -/
def knitRecords : List ComponentRecord :=
  let record (id name : String) (references : List Reference) : ComponentRecord :=
    ⟨id, name, "app/" ++ id ++ ".rs", 1, .empty, .empty, references, false, false⟩
  [record "lexer" "Lexer" [⟨"parser", .calls, []⟩],
   record "parser" "Parser" [⟨"lexer", .imports, []⟩, ⟨"lexer", .calls, []⟩,
     ⟨"lexer", .inherits, []⟩, ⟨"parser", .calls, []⟩],
   record "printer" "Printer" []]

theorem metrics_account_for_edges_knitRecords :
    ∃ build : GraphBuild Float, ofRecords knitRecords = .ok build ∧
      (build.graph.components.map (·.metrics.afferent)).sum = 4 ∧
      (build.graph.components.map (·.metrics.efferent)).sum = 4 ∧
      ∃ c ∈ build.graph.components, c.id = "parser" ∧ build.graph.CountsOwnEdges c ∧
        c.metrics.degreeCentrality = 2.0 / 4.0 := by
  have hbuild : ofRecords knitRecords = .ok (.ofSorted knitRecords : GraphBuild Float) :=
    ofRecords_of_ascending (by decide +kernel) (by decide +kernel)
  have hedges : (ofSorted knitRecords : GraphBuild Float).graph.edges.countP
      (fun e => e.source ≠ e.target) = 4 := by
    decide +kernel
  have hparser : ∃ c ∈ (ofSorted knitRecords : GraphBuild Float).graph.components,
      c.id = "parser" := by
    decide +kernel
  obtain ⟨c, hc, hid⟩ := hparser
  obtain ⟨hafferent, hefferent, hown⟩ := metrics_account_for_edges hbuild
  refine ⟨_, hbuild, hafferent.trans hedges, hefferent.trans hedges, c, hc, hid, hown c hc, ?_⟩
  rw [(hown c hc).degree (by decide +kernel), hid]
  decide +kernel

end GraphBuild

end ArchAudit
