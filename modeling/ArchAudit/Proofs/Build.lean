-- SUMMARY: What a built graph says about its records: one node per record, one edge per resolved key, nothing lost.
import ArchAudit.Proofs.Edges
import ArchAudit.Proofs.Records

/-!
# Faithfulness of the build

A reference resolves only to a component that exists, so every edge has both ends
in the graph. Each reference ends up in exactly one place: in the weight of one edge,
or in a diagnostic that says it dangles.
-/

namespace ArchAudit

-- ---------------------------------------------------------------------------
-- Resolution
-- ---------------------------------------------------------------------------

namespace Resolution

def isAmbiguous : Resolution → Bool
  | .ambiguous _ _ _ => true
  | .resolved _ _ => false
  | .unresolved => false

theorem target?_pick_mem {strategy : MatchStrategy} {candidates : List ComponentId}
    {target : ComponentId} (h : (pick strategy candidates).target? = some target) :
    target ∈ candidates := by
  match candidates, h with
  | [only], h =>
    cases h
    exact List.mem_singleton.2 rfl
  | first :: second :: others, h =>
    cases h
    exact List.mem_cons_self

theorem byPrefix_subset (addresses : List Address) (source : ComponentId)
    (wanted : List String) : byPrefix addresses source wanted ⊆ addresses.map (·.id) := by
  intro id hid
  simp only [byPrefix, List.mem_map, List.mem_filter, List.mem_filterMap,
    Option.map_eq_some_iff] at hid
  obtain ⟨_, ⟨⟨a, ⟨ha, _⟩, _, _, rfl⟩, _⟩, rfl⟩ := hid
  exact List.mem_map.2 ⟨a, ha, rfl⟩

/-- Every step proposes components only. -/
theorem steps_subset {addresses : List Address} {source : ComponentId} {normalized : String}
    {step : MatchStrategy × List ComponentId} (h : step ∈ steps addresses source normalized) :
    step.2 ⊆ addresses.map (·.id) := by
  have hfilter : ∀ p : Address → Bool,
      (addresses.filter p).map (·.id) ⊆ addresses.map (·.id) :=
    fun p => List.map_subset _ (List.filter_subset_self ..)
  simp only [steps, List.mem_cons, List.not_mem_nil, or_false] at h
  rcases h with rfl | rfl | rfl | rfl | rfl
  · exact hfilter _
  · exact hfilter _
  · exact hfilter _
  · exact hfilter _
  · exact byPrefix_subset addresses source _

/-- A reference resolves to one of the components, whatever its text is. -/
theorem target?_resolve_mem {addresses : List Address} {source : ComponentId}
    {reference : String} {target : ComponentId}
    (h : (resolve addresses source reference).target? = some target) :
    target ∈ addresses.map (·.id) := by
  unfold resolve at h
  simp only at h
  split at h
  · cases h
  · split at h
    next strategy candidates hfind =>
      exact steps_subset (List.mem_of_find?_eq_some hfind) (target?_pick_mem h)
    next => cases h

end Resolution

-- ---------------------------------------------------------------------------
-- Metrics
-- ---------------------------------------------------------------------------

namespace Adjacency

variable {α : Type} [Scalar α]

@[simp] theorem length_degreeCentrality (g : Adjacency) :
    (g.degreeCentrality : List α).length = g.size := by
  unfold degreeCentrality
  simp only
  split <;> simp

theorem size_accumulate (s : Search α) (source : Nat) (totals : Array α) :
    (accumulate s source totals).size = totals.size := by
  unfold accumulate
  -- The totals only ever change by `modify`; the other component does not matter.
  generalize Array.replicate totals.size (0.0 : α) = delta
  induction s.order.toList.reverse generalizing delta totals with
  | nil => rfl
  | cons w rest ih =>
    rw [List.foldl_cons]
    by_cases hw : w = source
    · simp only [hw, if_true]
      exact ih totals _
    · simp only [hw, if_false]
      rw [ih]
      exact Array.size_modify

@[simp] theorem size_dependencies (g : Adjacency) :
    (dependencies g : Array α).size = g.size := by
  unfold dependencies
  have hfold : ∀ (sources : List Nat) (totals : Array α),
      (sources.foldl (fun totals source => accumulate (g.search source) source totals)
        totals).size = totals.size := by
    intro sources
    induction sources with
    | nil => exact fun _ => rfl
    | cons source sources ih =>
      intro totals
      rw [List.foldl_cons, ih, size_accumulate]
  rw [hfold, Array.size_replicate]

@[simp] theorem length_betweennessCentrality (g : Adjacency) :
    (g.betweennessCentrality : List α).length = g.size := by
  unfold betweennessCentrality
  simp only
  split <;> simp

end Adjacency

namespace Graph

variable {α : Type} [Scalar α]

omit [Scalar α] in
@[simp] theorem size_adjacency (g : Graph α) : g.adjacency.size = g.components.length := by
  simp [adjacency, ids]

@[simp] theorem edges_withMetrics (g : Graph α) : g.withMetrics.edges = g.edges := rfl

/-- Filling in the metrics changes nothing else of a component. -/
theorem components_withMetrics (g : Graph α) :
    List.Forall₂ (fun c c' => c' = { c with metrics := c'.metrics })
      g.components g.withMetrics.components := by
  have hlength : g.components.length =
      ((g.adjacency.degreeCentrality : List α).zip
        (g.adjacency.betweennessCentrality : List α)).length := by
    simp
  simp only [withMetrics]
  generalize (g.adjacency.degreeCentrality : List α).zip
    (g.adjacency.betweennessCentrality : List α) = centralities at hlength
  generalize g.components = components at hlength
  induction components generalizing centralities with
  | nil => exact .nil
  | cons c components ih =>
    cases centralities with
    | nil => cases hlength
    | cons centrality centralities =>
      exact .cons rfl (ih centralities (Nat.succ.inj hlength))

theorem map_components_withMetrics {β : Type} (g : Graph α) (f : Component α → β)
    (hf : ∀ c metrics, f { c with metrics } = f c) :
    g.withMetrics.components.map f = g.components.map f := by
  have hall := g.components_withMetrics
  generalize g.withMetrics.components = components' at hall
  generalize g.components = components at hall
  induction hall with
  | nil => rfl
  | cons heq _ ih =>
    rw [List.map_cons, List.map_cons, ih, heq, hf]

@[simp] theorem ids_withMetrics (g : Graph α) : g.withMetrics.ids = g.ids :=
  g.map_components_withMetrics (·.id) fun _ _ => rfl

/-- What references to the components of a graph are looked up in. -/
def addresses (g : Graph α) : List Address :=
  g.components.map Address.ofComponent

@[simp] theorem addresses_withMetrics (g : Graph α) : g.withMetrics.addresses = g.addresses :=
  g.map_components_withMetrics Address.ofComponent fun _ _ => rfl

omit [Scalar α] in
theorem map_id_addresses (g : Graph α) : g.addresses.map (·.id) = g.ids := by
  simp [addresses, ids, Address.ofComponent, Address.ofParts]

end Graph

-- ---------------------------------------------------------------------------
-- References
-- ---------------------------------------------------------------------------

namespace Mention

/-- The reference is one of those that the edge of a key stands for. -/
def Makes (addresses : List Address) (m : Mention)
    (k : ComponentId × ComponentId × EdgeKind) : Prop :=
  m.source = k.1 ∧ (m.resolve addresses).target? = some k.2.1 ∧ m.reference.kind = k.2.2

instance (addresses : List Address) (m : Mention) (k : ComponentId × ComponentId × EdgeKind) :
    Decidable (m.Makes addresses k) :=
  inferInstanceAs (Decidable (_ ∧ _ ∧ _))

variable {addresses : List Address}

theorem edge?_eq_some {m : Mention} {e : Edge} (h : m.edge? addresses = some e) :
    e.weight = 1 ∧ e.symbols = NameSet.ofList m.reference.symbols ∧
      ∀ k, m.Makes addresses k ↔ e.key = k := by
  obtain ⟨target, htarget, rfl⟩ := Option.map_eq_some_iff.1 h
  refine ⟨rfl, rfl, fun k => ?_⟩
  obtain ⟨s, t, kind⟩ := k
  simp [Makes, Edge.key, htarget]

theorem edge?_eq_none {m : Mention} (h : m.edge? addresses = none)
    (k : ComponentId × ComponentId × EdgeKind) : ¬ m.Makes addresses k := by
  rintro ⟨_, htarget, _⟩
  rw [edge?, htarget] at h
  cases h

theorem mem_keys_filterMap_edge? {ms : List Mention}
    {k : ComponentId × ComponentId × EdgeKind} :
    k ∈ (ms.filterMap (·.edge? addresses)).map Edge.key ↔ ∃ m ∈ ms, m.Makes addresses k := by
  simp only [List.mem_map, List.mem_filterMap]
  constructor
  · rintro ⟨e, ⟨m, hm, he⟩, hkey⟩
    exact ⟨m, hm, ((edge?_eq_some he).2.2 k).2 hkey⟩
  · rintro ⟨m, hm, hmakes⟩
    cases he : m.edge? addresses with
    | none => exact absurd hmakes (edge?_eq_none he k)
    | some e => exact ⟨e, ⟨m, hm, he⟩, ((edge?_eq_some he).2.2 k).1 hmakes⟩

/-- The weight of some edges counts the references that make them. -/
theorem totalWeight_filter_filterMap_edge? {p : Edge → Bool} {q : Mention → Bool}
    (hsome : ∀ m e, m.edge? addresses = some e → p e = q m)
    (hnone : ∀ m, m.edge? addresses = none → q m = false) (ms : List Mention) :
    Edge.totalWeight ((ms.filterMap (·.edge? addresses)).filter p) = ms.countP q := by
  induction ms with
  | nil => rfl
  | cons m ms ih =>
    rw [List.countP_cons, ← ih]
    cases he : m.edge? addresses with
    | none => simp [List.filterMap_cons_none he, hnone m he]
    | some e =>
      have hweight : e.weight = 1 := (edge?_eq_some he).1
      rw [List.filterMap_cons_some he, List.filter_cons, hsome m e he]
      cases q m with
      | true => simp [hweight, Nat.add_comm]
      | false => simp

/-- The weight under a key counts the references that make it. -/
theorem weightAt_filterMap_edge? (ms : List Mention)
    (k : ComponentId × ComponentId × EdgeKind) :
    Edge.weightAt k (ms.filterMap (·.edge? addresses)) =
      ms.countP fun m => m.Makes addresses k := by
  apply totalWeight_filter_filterMap_edge?
  · intro m e he
    simp only [(edge?_eq_some he).2.2 k]
  · intro m he
    simpa using edge?_eq_none he k

theorem carriesAt_filterMap_edge? {ms : List Mention}
    {k : ComponentId × ComponentId × EdgeKind} {x : String} :
    Edge.CarriesAt k x (ms.filterMap (·.edge? addresses)) ↔
      ∃ m ∈ ms, m.Makes addresses k ∧ x ∈ m.reference.symbols := by
  simp only [Edge.CarriesAt, List.mem_filterMap]
  constructor
  · rintro ⟨e, ⟨m, hm, he⟩, hk, hx⟩
    obtain ⟨_, hsymbols, hkey⟩ := edge?_eq_some he
    rw [hsymbols, NameSet.mem_ofList] at hx
    exact ⟨m, hm, (hkey k).2 hk, hx⟩
  · rintro ⟨m, hm, hmakes, hx⟩
    cases he : m.edge? addresses with
    | none => exact absurd hmakes (edge?_eq_none he k)
    | some e =>
      obtain ⟨_, hsymbols, hkey⟩ := edge?_eq_some he
      refine ⟨e, ⟨m, hm, he⟩, (hkey k).1 hmakes, ?_⟩
      rwa [hsymbols, NameSet.mem_ofList]

/-- A reference either adds one to a weight or dangles. -/
theorem totalWeight_add_dangling (ms : List Mention) :
    Edge.totalWeight (ms.filterMap (·.edge? addresses)) +
      ((ms.flatMap (·.diagnostics addresses)).filter (·.kind = .danglingReference)).length =
      ms.length := by
  induction ms with
  | nil => rfl
  | cons m ms ih =>
    rw [List.flatMap_cons, List.filter_append, List.length_append, List.length_cons]
    cases hr : m.resolve addresses with
    | resolved target strategy =>
      simp [edge?, diagnostics, hr, Resolution.target?,
        Diagnostic.ofResolution] at ih ⊢
      omega
    | ambiguous target strategy candidates =>
      simp [edge?, diagnostics, hr, Resolution.target?,
        Diagnostic.ofResolution, Diagnostic.ambiguous] at ih ⊢
      omega
    | unresolved =>
      simp [edge?, diagnostics, hr, Resolution.target?,
        Diagnostic.ofResolution, Diagnostic.dangling] at ih ⊢
      omega

/-- The diagnostic reports the reference as ambiguous, with the number of candidates
    and the one that was taken. -/
def ReportedBy (addresses : List Address) (m : Mention) (d : Diagnostic) : Prop :=
  ∃ target strategy candidates, m.resolve addresses = .ambiguous target strategy candidates ∧
    d = .ambiguous m.source m.reference.target candidates.length target

/-- Several components match the reference. -/
def isAmbiguous (addresses : List Address) (m : Mention) : Bool :=
  (m.resolve addresses).isAmbiguous

/-- The reports of ambiguity are those of the ambiguous references, in their order. -/
theorem forall₂_reportedBy (ms : List Mention) :
    List.Forall₂ (ReportedBy addresses) (ms.filter (·.isAmbiguous addresses))
      ((ms.flatMap (·.diagnostics addresses)).filter (·.kind = .ambiguousReference)) := by
  induction ms with
  | nil => exact .nil
  | cons m ms ih =>
    rw [List.flatMap_cons, List.filter_append]
    cases hr : m.resolve addresses with
    | resolved target strategy =>
      have hm : ¬ m.isAmbiguous addresses = true := by
        simp [isAmbiguous, hr, Resolution.isAmbiguous]
      have hd : m.diagnostics addresses = [] := by rw [diagnostics, hr]; rfl
      rw [List.filter_cons_of_neg hm, hd]
      exact ih
    | ambiguous target strategy candidates =>
      have hm : m.isAmbiguous addresses = true := by
        simp [isAmbiguous, hr, Resolution.isAmbiguous]
      have hd : m.diagnostics addresses =
          [.ambiguous m.source m.reference.target candidates.length target] := by
        rw [diagnostics, hr]; rfl
      rw [List.filter_cons_of_pos hm, hd]
      exact .cons ⟨target, strategy, candidates, hr, rfl⟩ ih
    | unresolved =>
      have hm : ¬ m.isAmbiguous addresses = true := by
        simp [isAmbiguous, hr, Resolution.isAmbiguous]
      have hd : m.diagnostics addresses = [.dangling m.source m.reference.target] := by
        rw [diagnostics, hr]; rfl
      rw [List.filter_cons_of_neg hm, hd]
      exact ih

end Mention

-- ---------------------------------------------------------------------------
-- Build
-- ---------------------------------------------------------------------------

/-- The component is the node of the record, whatever its metrics are. -/
def Component.IsNodeOf {α : Type} [Scalar α] (r : ComponentRecord) (c : Component α) : Prop :=
  c = { (Component.ofRecord r : Component α) with metrics := c.metrics }

/-- Components stand in ascending order of ids and edges in ascending order of keys,
    each once, and both ends of every edge are components. -/
structure Graph.WellFormed {α : Type} (g : Graph α) : Prop where
  ascending : g.ids.Pairwise (· < ·)
  edgesAscending : g.edges.Pairwise Edge.Before
  sourceMem : ∀ e ∈ g.edges, e.source ∈ g.ids
  targetMem : ∀ e ∈ g.edges, e.target ∈ g.ids

/-- A graph and its diagnostics say about records what there is to say, once. -/
structure GraphBuild.Faithful {α : Type} [Scalar α] (build : GraphBuild α)
    (records : List ComponentRecord) : Prop where
  arranged : (sortRecords records).Perm records
  components : List.Forall₂ Component.IsNodeOf (sortRecords records) build.graph.components
  wellFormed : build.graph.WellFormed
  /-- There is an edge of a key if and only if some reference makes it. -/
  edge_iff : ∀ k, (∃ e ∈ build.graph.edges, e.key = k) ↔
    ∃ r ∈ records, ∃ reference ∈ r.references,
      (Mention.mk r.componentId reference).Makes build.graph.addresses k
  weight : ∀ e ∈ build.graph.edges,
    e.weight = (mentions records).countP fun m => m.Makes build.graph.addresses e.key
  symbols : ∀ e ∈ build.graph.edges, ∀ x, x ∈ e.symbols.toList ↔
    ∃ m ∈ mentions records, m.Makes build.graph.addresses e.key ∧ x ∈ m.reference.symbols
  /-- Every reference is counted in a weight or dangles. -/
  conserved : Edge.totalWeight build.graph.edges +
    (build.diagnostics.filter (·.kind = .danglingReference)).length =
      (records.flatMap (·.references)).length
  ambiguities : List.Forall₂ (Mention.ReportedBy build.graph.addresses)
    ((mentions (sortRecords records)).filter (·.isAmbiguous build.graph.addresses))
    (build.diagnostics.filter (·.kind = .ambiguousReference))

namespace GraphBuild

variable {α : Type} [Scalar α] {records : List ComponentRecord}

/-- The graph of arranged records before its metrics are filled in. -/
def bareGraph (records : List ComponentRecord) : Graph α :=
  let components : List (Component α) := records.map Component.ofRecord
  ⟨components, collapseEdges
    ((mentions records).filterMap (·.edge? (components.map Address.ofComponent)))⟩

theorem graph_ofSorted (records : List ComponentRecord) :
    (ofSorted records : GraphBuild α).graph = (bareGraph records).withMetrics := rfl

theorem addresses_ofSorted (records : List ComponentRecord) :
    (ofSorted records : GraphBuild α).graph.addresses =
      (records.map (Component.ofRecord : _ → Component α)).map Address.ofComponent := by
  rw [graph_ofSorted, Graph.addresses_withMetrics]
  rfl

theorem edges_ofSorted (records : List ComponentRecord) :
    (ofSorted records : GraphBuild α).graph.edges =
      collapseEdges ((mentions records).filterMap
        (·.edge? (ofSorted records : GraphBuild α).graph.addresses)) := by
  rw [addresses_ofSorted]
  rfl

theorem diagnostics_ofSorted (records : List ComponentRecord) :
    (ofSorted records : GraphBuild α).diagnostics =
      (mentions records).flatMap
        (·.diagnostics (ofSorted records : GraphBuild α).graph.addresses) := by
  rw [addresses_ofSorted]
  rfl

theorem ids_ofSorted (records : List ComponentRecord) :
    (ofSorted records : GraphBuild α).graph.ids = records.map (·.componentId) := by
  rw [graph_ofSorted, Graph.ids_withMetrics]
  simp [bareGraph, Graph.ids, Component.ofRecord]

theorem components_ofSorted (records : List ComponentRecord) :
    List.Forall₂ Component.IsNodeOf records (ofSorted records : GraphBuild α).graph.components := by
  have h := (bareGraph records : Graph α).components_withMetrics
  rw [graph_ofSorted]
  exact (List.forall₂_map_left_iff (f := Component.ofRecord)).1 h

/-- The edges of a key in the graph of arranged records gather its references. -/
theorem mem_edges_ofSorted {e : Edge} :
    e ∈ (ofSorted records : GraphBuild α).graph.edges ↔
      e.Gathers ((mentions records).filterMap
        (·.edge? (ofSorted records : GraphBuild α).graph.addresses)) := by
  rw [edges_ofSorted]
  exact mem_collapseEdges

theorem exists_makes_of_mem_edges {e : Edge}
    (he : e ∈ (ofSorted records : GraphBuild α).graph.edges) :
    ∃ m ∈ mentions records, m.Makes (ofSorted records : GraphBuild α).graph.addresses e.key :=
  Mention.mem_keys_filterMap_edge?.1 (mem_edges_ofSorted.1 he).occurs

theorem source_mem_ids_ofSorted {e : Edge}
    (he : e ∈ (ofSorted records : GraphBuild α).graph.edges) :
    e.source ∈ (ofSorted records : GraphBuild α).graph.ids := by
  obtain ⟨m, hm, hsource, _⟩ := exists_makes_of_mem_edges he
  obtain ⟨r, hr, hid, _⟩ := mem_mentions.1 hm
  rw [ids_ofSorted]
  exact List.mem_map.2 ⟨r, hr, hid.trans hsource⟩

theorem target_mem_ids_ofSorted {e : Edge}
    (he : e ∈ (ofSorted records : GraphBuild α).graph.edges) :
    e.target ∈ (ofSorted records : GraphBuild α).graph.ids := by
  obtain ⟨m, _, _, htarget, _⟩ := exists_makes_of_mem_edges he
  rw [← Graph.map_id_addresses]
  exact Resolution.target?_resolve_mem htarget

theorem exists_edge_iff_ofSorted {k : ComponentId × ComponentId × EdgeKind} :
    (∃ e ∈ (ofSorted records : GraphBuild α).graph.edges, e.key = k) ↔
      ∃ m ∈ mentions records,
        m.Makes (ofSorted records : GraphBuild α).graph.addresses k := by
  rw [← Mention.mem_keys_filterMap_edge?, ← mem_keys_collapseEdges, ← edges_ofSorted,
    List.mem_map]

theorem wellFormed_of_ofRecords {build : GraphBuild α} (h : ofRecords records = .ok build) :
    build.graph.WellFormed := by
  obtain ⟨haccepted, rfl⟩ := ofRecords_eq_ok_iff.1 h
  refine ⟨?_, ?_, fun e he => source_mem_ids_ofSorted he, fun e he => target_mem_ids_ofSorted he⟩
  · rw [ids_ofSorted]
    exact List.pairwise_map.2 (pairwise_sortRecords haccepted.distinct)
  · rw [edges_ofSorted]
    exact pairwise_collapseEdges _

/-- Every component is the node of one of the records, and no field that must be there is empty. -/
theorem exists_record_of_mem_components {build : GraphBuild α} (h : ofRecords records = .ok build)
    {c : Component α} (hc : c ∈ build.graph.components) :
    ∃ r ∈ records, Component.IsNodeOf r c ∧ ∀ f ∈ r.requiredFields, f.2 ≠ "" := by
  obtain ⟨haccepted, rfl⟩ := ofRecords_eq_ok_iff.1 h
  obtain ⟨hlength, hnodes⟩ :=
    List.forall₂_iff_get.1 (components_ofSorted (α := α) (sortRecords records))
  obtain ⟨i, rfl⟩ := List.get_of_mem hc
  have hi : i < (sortRecords records).length := i.isLt.trans_eq hlength.symm
  have hr : (sortRecords records).get ⟨i, hi⟩ ∈ records :=
    (sortRecords_perm records).mem_iff.1 (List.get_mem _ _)
  refine ⟨_, hr, hnodes i hi i.isLt, fun f hf hempty => ?_⟩
  have hfull := haccepted.complete _ hr f hf
  rw [hempty] at hfull
  cases hfull

/-- Accepted records make a graph that is faithful to them. -/
theorem faithful_of_ofRecords {build : GraphBuild α} (h : ofRecords records = .ok build) :
    build.Faithful records := by
  have hwellFormed := wellFormed_of_ofRecords h
  obtain ⟨_, rfl⟩ := ofRecords_eq_ok_iff.1 h
  have hperm := mentions_perm (sortRecords_perm records)
  refine
    { arranged := sortRecords_perm records
      components := components_ofSorted _
      wellFormed := hwellFormed
      edge_iff := fun k => ?_
      weight := fun e he => ?_
      symbols := fun e he x => ?_
      conserved := ?_
      ambiguities := ?_ }
  · rw [exists_edge_iff_ofSorted]
    constructor
    · rintro ⟨⟨source, reference⟩, hm, hmakes⟩
      obtain ⟨r, hr, rfl, hreference⟩ := mem_mentions.1 (hperm.mem_iff.1 hm)
      exact ⟨r, hr, reference, hreference, hmakes⟩
    · rintro ⟨r, hr, reference, hreference, hmakes⟩
      exact ⟨_, hperm.mem_iff.2 (mem_mentions.2 ⟨r, hr, rfl, hreference⟩), hmakes⟩
  · rw [(mem_edges_ofSorted.1 he).weight, Mention.weightAt_filterMap_edge?]
    exact hperm.countP_eq _
  · rw [(mem_edges_ofSorted.1 he).symbols, Mention.carriesAt_filterMap_edge?]
    simp only [hperm.mem_iff]
  · rw [edges_ofSorted, diagnostics_ofSorted, totalWeight_collapseEdges,
      Mention.totalWeight_add_dangling, hperm.length_eq, length_mentions]
  · rw [diagnostics_ofSorted]
    exact Mention.forall₂_reportedBy _

/-- Records of which two share a name, with a repeated, a dangling and an ambiguous
    reference. -/
def sampleRecords : List ComponentRecord :=
  [⟨"orders", "Orders", "lib/orders.rs", 3, .empty, .empty, [⟨"Util", .calls, ["log"]⟩],
      false, false⟩,
   ⟨"api", "Util", "src/util.rs", 3, .empty, .empty,
      [⟨"orders", .imports, ["find"]⟩, ⟨"lib/orders.rs", .imports, ["add"]⟩,
       ⟨"nowhere", .imports, []⟩], false, false⟩,
   ⟨"tools", "Util", "lib/util.rs", 3, .empty, .empty, [], false, false⟩]

theorem faithful_sampleRecords :
    ∃ build : GraphBuild Float, ofRecords sampleRecords = .ok build ∧
      build.graph.edges.map (fun e => (e.key, e.weight)) =
        [(("api", "orders", .imports), 2), (("orders", "api", .calls), 1)] ∧
      build.Faithful sampleRecords := by
  have hnone : firstProblem? 0 [] sampleRecords = none := by decide
  have hok : ofRecords sampleRecords =
      .ok (ofSorted (sortRecords sampleRecords) : GraphBuild Float) := by
    rw [ofRecords, hnone]
  have hsorted : sortRecords sampleRecords =
      [sampleRecords[1], sampleRecords[0], sampleRecords[2]] :=
    (eq_sortRecords (List.Perm.swap _ _ _) (by decide)).symm
  refine ⟨_, hok, ?_, faithful_of_ofRecords hok⟩
  rw [hsorted]
  decide +kernel

end GraphBuild

end ArchAudit
