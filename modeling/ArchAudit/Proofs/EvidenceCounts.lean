-- SUMMARY: The evidence of each intent accounts for the edges and components that it is about.
import ArchAudit.Intent.Hiding
import ArchAudit.Intent.Inversion
import ArchAudit.Proofs.Binary64Quotients
import ArchAudit.Proofs.ExactScalars
import ArchAudit.Proofs.JudgedPairs
import ArchAudit.Proofs.LayerDirectories
import ArchAudit.Proofs.ReferentialClosure
import Mathlib.Data.Set.Card

/-!
# Counts of evidence

Scores are computed from counts, advice and roles from the evidence beside them. The two agree:
what an intent lists can be told from the graph, by edges between labelled components, by pairs
of feature domains and by the symbols that components declare, and the counts are those of the
list.
-/

namespace ArchAudit

-- ---------------------------------------------------------------------------
-- Labels
-- ---------------------------------------------------------------------------

/-- With distinct keys, what is found under a key belongs to the element with the key. -/
theorem lookup_filterMap_key {β γ : Type} {key : γ → String} {f : γ → Option β} {l : List γ}
    (h : (l.map key).Nodup) (k : String) :
    (l.filterMap fun c => (f c).map fun b => (key c, b)).lookup k =
      (l.find? (key · == k)).bind f := by
  induction l with
  | nil => rfl
  | cons c l ih =>
    rw [List.map_cons, List.nodup_cons] at h
    by_cases hkey : key c = k
    · have hrest : l.find? (key · == k) = none := by
        rw [List.find?_eq_none]
        intro d hd hdk
        exact h.1 (List.mem_map.2 ⟨d, hd, (eq_of_beq hdk).trans hkey.symm⟩)
      rw [List.find?_cons_of_pos (by simp [hkey]), Option.bind_some]
      cases hf : f c with
      | none => rw [List.filterMap_cons_none (by rw [hf]; rfl), ih h.2, hrest, Option.bind_none]
      | some b =>
        rw [List.filterMap_cons_some (by rw [hf]; rfl), lookup_cons_eq_ite, if_pos hkey.symm]
    · rw [List.find?_cons_of_neg (by simp [hkey])]
      cases hf : f c with
      | none => rw [List.filterMap_cons_none (by rw [hf]; rfl), ih h.2]
      | some b =>
        rw [List.filterMap_cons_some (by rw [hf]; rfl), lookup_cons_eq_ite,
          if_neg (Ne.symm hkey), ih h.2]

/-- If each element contributes one item or none, the items count the elements that do. -/
theorem countP_flatMap_of_forall {β γ : Type} {f : β → List γ} {p : γ → Bool} {q : β → Bool}
    {l : List β} (h : ∀ b ∈ l, (f b).countP p = if q b then 1 else 0) :
    (l.flatMap f).countP p = l.countP q := by
  induction l with
  | nil => rfl
  | cons b l ih =>
    rw [List.flatMap_cons, List.countP_append, h b List.mem_cons_self,
      ih fun c hc => h c (List.mem_cons_of_mem b hc), List.countP_cons, Nat.add_comm]

/-- Both ends have labels, and they are related. -/
def Edge.relates {β : Type} (label? : ComponentId → Option β) (r : β → β → Bool) (e : Edge) :
    Bool :=
  (label? e.source).any fun a => (label? e.target).any fun b => r a b

namespace Graph

variable {α : Type} {g : Graph α}

/-- The layer of the component with an id. -/
def layer? (k : LayerClassifier) (g : Graph α) (id : ComponentId) : Option Layer :=
  (g.component? id).bind fun c => k.classify c.filePath

/-- The feature domain of the component with an id. -/
def domain? (k : LayerClassifier) (g : Graph α) (id : ComponentId) : Option String :=
  (g.component? id).bind fun c => k.domainKey c.filePath

theorem WellFormed.lookup_layersBy (h : g.WellFormed) (k : LayerClassifier) (id : ComponentId) :
    (g.layersBy k).lookup id = g.layer? k id :=
  lookup_filterMap_key h.nodup_ids id

theorem WellFormed.lookup_domainsBy (h : g.WellFormed) (k : LayerClassifier) (id : ComponentId) :
    (g.domainsBy k).lookup id = g.domain? k id :=
  lookup_filterMap_key h.nodup_ids id

theorem mem_labelledEdges {β : Type} {labels : List (ComponentId × β)} {e : LabelledEdge β} :
    e ∈ g.labelledEdges labels ↔ e.edge ∈ g.dependencyEdges ∧
      labels.lookup e.edge.source = some e.source ∧
      labels.lookup e.edge.target = some e.target := by
  simp only [labelledEdges, List.mem_filterMap]
  constructor
  · rintro ⟨edge, hedge, he⟩
    obtain ⟨a, ha, he⟩ := Option.bind_eq_some_iff.1 he
    obtain ⟨b, hb, he⟩ := Option.bind_eq_some_iff.1 he
    cases he
    exact ⟨hedge, ha, hb⟩
  · rintro ⟨hedge, ha, hb⟩
    refine ⟨e.edge, hedge, ?_⟩
    rw [ha, hb]
    rfl

/-- The labelled edges that pass a test are the edges whose labels are so related, in their
    order. -/
theorem map_edge_filter_labelledEdges {β : Type} {labels : List (ComponentId × β)}
    {label? : ComponentId → Option β} (hlabel : ∀ id, labels.lookup id = label? id)
    (r : β → β → Bool) :
    ((g.labelledEdges labels).filter fun e => r e.source e.target).map (·.edge) =
      g.dependencyEdges.filter (·.relates label? r) := by
  rw [labelledEdges, List.filter_filterMap, List.map_filterMap, ← List.filterMap_eq_filter]
  refine List.filterMap_congr fun e _ => ?_
  simp only [hlabel, Option.guard, Edge.relates]
  obtain hsource | ⟨a, hsource⟩ := (label? e.source).eq_none_or_eq_some
  · simp [hsource]
  · obtain htarget | ⟨b, htarget⟩ := (label? e.target).eq_none_or_eq_some
    · simp [hsource, htarget]
    · cases hr : r a b <;> simp [hsource, htarget, hr]

theorem WellFormed.exists_target (h : g.WellFormed) {e : Edge} (he : e ∈ g.dependencyEdges) :
    ∃ c, g.component? e.target = some c := by
  have hmem : e.target ∈ g.ids := h.dependency_subset_ids he (by simp)
  obtain ⟨c, hc, hid⟩ := List.mem_map.1 hmem
  exact ⟨c, hid ▸ h.component?_eq hc⟩

/-- The edge leads to a component that declares an abstraction. -/
def endsAtAbstraction (g : Graph α) (e : Edge) : Bool :=
  (g.component? e.target).any (·.declaresAbstraction)

/-- The edge carries a symbol that its target does not export. -/
def carriesHidden (g : Graph α) (e : Edge) : Bool :=
  (g.component? e.target).any fun c => e.symbols.toList.any (!c.exportedSymbols.contains ·)

end Graph

-- ---------------------------------------------------------------------------
-- Results
-- ---------------------------------------------------------------------------

/-- What an item of evidence names and says, without its justification. -/
def Evidence.item (i : Evidence) : List ComponentId × EvidenceSignal :=
  (i.components, i.signal)

/-- The number of items of evidence with a signal. -/
def IntentResult.count {α : Type} (r : IntentResult α) (signal : EvidenceSignal) : Nat :=
  r.evidence.countP (·.signal = signal)

theorem countP_weakens_map {β : Type} {f : β → Evidence} (h : ∀ b, (f b).signal = .weakens)
    (l : List β) : (l.map f).countP (·.signal = .weakens) = l.length := by
  rw [List.countP_map, List.countP_eq_length]
  intro b _
  exact decide_eq_true (h b)

theorem IntentResult.count_eq {α : Type} (r : IntentResult α) (signal : EvidenceSignal) :
    r.count signal = (r.evidence.map Evidence.item).countP (·.2 = signal) := by
  rw [List.countP_map]
  rfl

theorem IntentResult.supports_iff {α : Type} (r : IntentResult α) (id : ComponentId) :
    r.supports id = true ↔ ∃ i ∈ r.evidence.map Evidence.item, i.2 = .supports ∧ id ∈ i.1 := by
  simp [supports, Evidence.item]

theorem IntentResult.count_supports_add_weakens {α : Type} (r : IntentResult α) :
    r.count .supports + r.count .weakens = r.evidence.length := by
  rw [count, count, List.length_eq_countP_add_countP (·.signal = .supports)]
  congr 1
  refine List.countP_congr fun i _ => ?_
  cases i.signal <;> simp

/-- The score of the measured parts stands beside the other metrics. -/
theorem CombinedScore.get?_metrics_toResult {α : Type} (s : CombinedScore α) (kind : IntentKind)
    (evidence : List Evidence) (metrics : NameMap α) {key : String}
    (h : key ≠ IntentResult.measuredMetric) :
    (s.toResult kind evidence metrics).metrics.get? key = metrics.get? key := by
  unfold toResult
  dsimp only
  split
  · rw [NameMap.get?_insert, if_neg h]
  · rfl

section

variable {α : Type} [Scalar α] {g : Graph α}

theorem Ratio.value_ofCounts (numerator denominator : Nat) :
    (Ratio.ofCounts numerator denominator : Ratio α).value =
      if denominator = 0 then 0.5 else (numerator : α) / (denominator : α) := by
  unfold ofCounts
  split <;> rfl

namespace Inversion

/-- The items are the dependencies on lower policy levels, in the order of the edges, and the
    ratio is the share of those that end at an abstraction. -/
structure Accounts (k : LayerClassifier) (g : Graph α) (r : IntentResult α) : Prop where
  items : r.evidence.map Evidence.item =
    (g.dependencyEdges.filter
      (·.relates (g.layer? k) fun a b => b.policyLevel < a.policyLevel)).map fun e =>
        ([e.source, e.target],
          if g.endsAtAbstraction e then EvidenceSignal.supports else EvidenceSignal.weakens)
  ratio : r.metrics.get? "inversion_ratio" =
    some (if r.count .supports + r.count .weakens = 0 then 0.5
      else (r.count .supports : α) / ((r.count .supports + r.count .weakens : Nat) : α))

omit [Scalar α] in
/-- The dependencies on lower policy levels, without the labels. -/
theorem map_descents (h : g.WellFormed) (k : LayerClassifier) :
    (descents k g).map (fun d => (d.edge.edge, d.inverted)) =
      (g.dependencyEdges.filter
        (·.relates (g.layer? k) fun a b => b.policyLevel < a.policyLevel)).map fun e =>
          (e, g.endsAtAbstraction e) := by
  have hdescents : descents k g =
      ((g.labelledEdges (g.layersBy k)).filter fun e =>
        e.target.policyLevel < e.source.policyLevel).map fun e =>
          ⟨e, g.endsAtAbstraction e.edge⟩ := by
    refine List.filterMap_eq_map_iff_forall_eq_some.2 fun e he => ?_
    have hedge := (Graph.mem_labelledEdges.1 (List.mem_of_mem_filter he)).1
    obtain ⟨c, hc⟩ := h.exists_target hedge
    rw [Graph.endsAtAbstraction, hc]
    rfl
  rw [hdescents, ← Graph.map_edge_filter_labelledEdges (h.lookup_layersBy k), List.map_map,
    List.map_map]
  rfl

theorem evidence_detect (hsize : 2 ≤ g.size) (k : LayerClassifier) (weights : InversionWeights α) :
    (detect k weights g).evidence = (descents k g).map descentEvidence := by
  rw [detect, if_neg (not_lt.2 hsize)]
  rfl

theorem count_supports_detect (hsize : 2 ≤ g.size) (k : LayerClassifier)
    (weights : InversionWeights α) :
    (detect k weights g).count .supports = ((descents k g).filter (·.inverted)).length := by
  rw [IntentResult.count, evidence_detect hsize, List.countP_map, List.countP_eq_length_filter]
  congr 2
  funext d
  cases hinverted : d.inverted <;> simp [descentEvidence, hinverted]

theorem accounts_detect (h : g.WellFormed) (hsize : 2 ≤ g.size) (k : LayerClassifier)
    (weights : InversionWeights α) : Accounts k g (detect k weights g) := by
  constructor
  · calc (detect k weights g).evidence.map Evidence.item
      _ = ((descents k g).map fun d => (d.edge.edge, d.inverted)).map fun p =>
          ([p.1.source, p.1.target], if p.2 then .supports else .weakens) := by
        rw [evidence_detect hsize, List.map_map, List.map_map]
        rfl
      _ = _ := by
        rw [map_descents h, List.map_map]
        rfl
  · rw [IntentResult.count_supports_add_weakens, count_supports_detect hsize,
      evidence_detect hsize, List.length_map, ← Ratio.value_ofCounts, detect,
      if_neg (not_lt.2 hsize)]
    dsimp only
    rw [CombinedScore.get?_metrics_toResult _ _ _ _ (by decide)]
    exact NameMap.get?_ofList_concat [_, _] _ _

end Inversion

namespace Separation

theorem mem_domainPairs {crossing : List (LabelledEdge String)} {p : String × String} :
    p ∈ domainPairs crossing ↔ ∃ e ∈ crossing, e.source = p.1 ∧ e.target = p.2 := by
  simp only [domainPairs, List.mem_flatMap, List.mem_map, mem_ascendingNames, List.mem_filter,
    decide_eq_true_iff]
  constructor
  · rintro ⟨_, _, _, ⟨e, ⟨he, hsource⟩, rfl⟩, rfl⟩
    exact ⟨e, he, hsource, rfl⟩
  · rintro ⟨e, he, hsource, htarget⟩
    exact ⟨p.1, ⟨e, he, hsource⟩, p.2, ⟨e, ⟨he, hsource⟩, htarget⟩, rfl⟩

theorem nodup_domainPairs (crossing : List (LabelledEdge String)) :
    (domainPairs crossing).Nodup := by
  rw [domainPairs, List.nodup_flatMap]
  constructor
  · intro source _
    exact (nodup_ascendingNames _).map fun _ _ h => (Prod.mk.inj h).2
  · refine (nodup_ascendingNames _).imp fun hne p hp hp' => hne ?_
    obtain ⟨_, _, rfl⟩ := List.mem_map.1 hp
    obtain ⟨_, _, heq⟩ := List.mem_map.1 hp'
    exact (Prod.mk.inj heq).1.symm

/-- The ordered pairs of different feature domains that an edge joins. -/
def joinedDomains (k : LayerClassifier) (g : Graph α) : Set (String × String) :=
  {p | p.1 ≠ p.2 ∧ ∃ e ∈ g.edges, g.domain? k e.source = some p.1 ∧ g.domain? k e.target = some p.2}

omit [Scalar α] in
theorem mem_joinedDomains_iff (h : g.WellFormed) {k : LayerClassifier} {p : String × String} :
    p ∈ joinedDomains k g ↔
      p ∈ domainPairs ((g.labelledEdges (g.domainsBy k)).filter fun e => e.source ≠ e.target) := by
  simp only [mem_domainPairs, List.mem_filter, Graph.mem_labelledEdges, h.lookup_domainsBy,
    decide_eq_true_iff]
  constructor
  · rintro ⟨hne, e, he, hsource, htarget⟩
    -- a component has one domain, so the edge leads to another component
    have hends : e.source ≠ e.target := by
      intro heq
      rw [heq, htarget] at hsource
      exact hne (Option.some.inj hsource).symm
    have hedge : e ∈ g.dependencyEdges :=
      List.mem_filter.2 ⟨he, by simpa [Edge.isSelfLoop] using hends⟩
    exact ⟨⟨e, p.1, p.2⟩, ⟨⟨hedge, hsource, htarget⟩, hne⟩, rfl, rfl⟩
  · rintro ⟨e, ⟨⟨hedge, hsource, htarget⟩, hne⟩, hp, hp'⟩
    rw [hp] at hsource hne
    rw [hp'] at htarget hne
    exact ⟨hne, e.edge, List.mem_of_mem_filter hedge, hsource, htarget⟩

omit [Scalar α] in
theorem length_domainPairs (h : g.WellFormed) (k : LayerClassifier) :
    (domainPairs ((g.labelledEdges (g.domainsBy k)).filter fun e => e.source ≠ e.target)).length =
      (joinedDomains k g).ncard := by
  have hset : joinedDomains k g = (domainPairs ((g.labelledEdges (g.domainsBy k)).filter fun e =>
      e.source ≠ e.target)).toFinset := by
    ext p
    rw [mem_joinedDomains_iff h, List.coe_toFinset]
    rfl
  rw [hset, Set.ncard_coe_finset, List.toFinset_card_of_nodup (nodup_domainPairs _)]

/-- Layers of different depth are different. -/
theorem violatesDependencyOn_and_ne (a b : Layer) :
    (a.violatesDependencyOn b && decide (a ≠ b)) = decide (a.depth < b.depth) := by
  rw [Layer.violatesDependencyOn, Bool.and_eq_left_iff_imp]
  intro hdepth
  refine decide_eq_true fun heq => ?_
  rw [heq] at hdepth
  exact lt_irrefl _ (of_decide_eq_true hdepth)

omit [Scalar α] in
theorem length_outward (h : g.WellFormed) (k : LayerClassifier) :
    (((g.labelledEdges (g.layersBy k)).filter fun e => e.source ≠ e.target).filter fun e =>
      e.source.violatesDependencyOn e.target).length =
      g.dependencyEdges.countP (·.relates (g.layer? k) fun a b => a.depth < b.depth) := by
  rw [List.filter_filter, List.countP_eq_length_filter,
    ← Graph.map_edge_filter_labelledEdges (h.lookup_layersBy k), List.length_map]
  congr 2
  funext e
  exact violatesDependencyOn_and_ne e.source e.target

theorem countP_weakens_layeredEvidence (layered : List ComponentId) (total : Nat) :
    (layeredEvidence layered total).countP (·.signal = .weakens) = 0 := by
  unfold layeredEvidence
  split <;> rfl

/-- The items against separation are the edges from an inner to an outer layer and the pairs of
    different domains that an edge joins. -/
structure Accounts (k : LayerClassifier) (g : Graph α) (r : IntentResult α) : Prop where
  weakens : r.count .weakens =
    g.dependencyEdges.countP (·.relates (g.layer? k) fun a b => a.depth < b.depth) +
      (joinedDomains k g).ncard

theorem accounts_detect (h : g.WellFormed) (hsize : 2 ≤ g.size) (k : LayerClassifier)
    (weights : SeparationWeights α) : Accounts k g (detect k weights g) := by
  constructor
  rw [IntentResult.count, detect, if_neg (not_lt.2 hsize)]
  simp only [CombinedScore.toResult]
  rw [List.countP_append, List.countP_append, countP_weakens_layeredEvidence,
    countP_weakens_map fun _ => rfl, countP_weakens_map fun _ => rfl, length_outward h,
    length_domainPairs h, Nat.add_zero]

end Separation

namespace Hiding

/-- Whether at least half of the symbols are private is read off the private share. -/
def ReadsHalf (c : Component α) : Prop :=
  0 < c.symbolCount →
    ((encapsulatedRatio : α) ≤ (c.privateSymbols.size : α) / (c.symbolCount : α) ↔
      c.symbolCount ≤ 2 * c.privateSymbols.size)

theorem readsHalf_rat (c : Component Rat) : ReadsHalf c := by
  intro hpos
  have hcount : (0 : Rat) < c.symbolCount := Nat.cast_pos.2 hpos
  have hhalf : (encapsulatedRatio : Rat) = 1 / 2 := by norm_num [encapsulatedRatio]
  rw [hhalf, div_le_div_iff₀ two_pos hcount, one_mul, mul_comm]
  exact_mod_cast Iff.rfl

theorem readsHalf_float {c : Component Float} (h : c.symbolCount < 2 ^ 53) : ReadsHalf c :=
  fun hpos => Binary64.half_le_div_iff hpos h (Nat.le_add_left _ _)

/-- What the symbols of a component say can be told by counting them. -/
theorem map_symbolEvidence {c : Component α} (h : ReadsHalf c) :
    (symbolEvidence c).map Evidence.item =
      if 0 < c.symbolCount ∧ c.symbolCount ≤ 2 * c.privateSymbols.size then
        [([c.id], EvidenceSignal.supports)]
      else if 0 < c.exportedSymbols.size ∧ c.privateSymbols.size = 0 then
        [([c.id], EvidenceSignal.weakens)]
      else [] := by
  have hcount : c.symbolCount = c.exportedSymbols.size + c.privateSymbols.size := rfl
  rcases Nat.eq_zero_or_pos c.symbolCount with hzero | hpos
  · have hratio : c.privateRatio = (none : Option α) := if_pos hzero
    rw [symbolEvidence, hratio]
    dsimp only
    rw [if_neg (by omega), if_neg (by omega)]
    rfl
  · have hratio : c.privateRatio =
        some ((c.privateSymbols.size : α) / (c.symbolCount : α)) := if_neg hpos.ne'
    have hempty : c.privateSymbols.isEmpty = true ↔ c.privateSymbols.size = 0 :=
      List.isEmpty_iff_length_eq_zero
    rw [symbolEvidence, hratio]
    dsimp only
    by_cases hhalf : c.symbolCount ≤ 2 * c.privateSymbols.size
    · rw [if_pos ((h hpos).2 hhalf), if_pos ⟨hpos, hhalf⟩]
      rfl
    · rw [if_neg (mt (h hpos).1 hhalf), if_neg (mt And.right hhalf)]
      by_cases hnone : c.privateSymbols.size = 0
      · rw [if_pos (hempty.2 hnone), if_pos ⟨by omega, hnone⟩]
        rfl
      · rw [if_neg (mt hempty.1 hnone), if_neg (mt And.right hnone)]
        rfl

omit [Scalar α] in
/-- The uses of hidden symbols are the edges that carry one. -/
theorem map_edge_leaks (g : Graph α) :
    ((symbolUses g).filter (!·.leaked.isEmpty)).map (·.edge) =
      g.dependencyEdges.filter g.carriesHidden := by
  rw [symbolUses, List.filterMap_filter, List.filter_filterMap, List.map_filterMap,
    ← List.filterMap_eq_filter]
  refine List.filterMap_congr fun e _ => ?_
  rw [Option.guard]
  obtain htarget | ⟨c, htarget⟩ := (g.component? e.target).eq_none_or_eq_some
  · have hhidden : g.carriesHidden e = false := by
      rw [Graph.carriesHidden, htarget]
      rfl
    simp [htarget, hhidden]
  · have hhidden : g.carriesHidden e =
        !(e.symbols.toList.filter (!c.exportedSymbols.contains ·)).isEmpty := by
      rw [Graph.carriesHidden, htarget, Bool.eq_iff_iff]
      simp [List.filter_eq_nil_iff]
    by_cases hempty : e.symbols.toList = []
    · simp [hhidden, NameSet.isEmpty, hempty]
    · simp [htarget, hhidden, NameSet.isEmpty, hempty, Option.filter]

theorem map_evidence_detect (hsize : 2 ≤ g.size) (weights : HidingWeights α) :
    (detect weights g).evidence.map Evidence.item =
      g.components.flatMap (fun c => (symbolEvidence c).map Evidence.item) ++
        (g.dependencyEdges.filter g.carriesHidden).map fun e =>
          ([e.source, e.target], EvidenceSignal.weakens) := by
  have hevidence : (detect weights g).evidence = g.components.flatMap symbolEvidence ++
      ((symbolUses g).filter (!·.leaked.isEmpty)).map leakEvidence := by
    rw [detect, if_neg (not_lt.2 hsize)]
    rfl
  rw [hevidence, List.map_append, List.map_flatMap, ← map_edge_leaks, List.map_map, List.map_map]
  rfl

/-- The components that the evidence supports keep half of their symbols private. The items against
    hiding are the components that keep none and the edges that carry a hidden symbol. -/
structure Accounts (g : Graph α) (r : IntentResult α) : Prop where
  supports_iff : ∀ id, r.supports id = true ↔ ∃ c ∈ g.components, c.id = id ∧
    0 < c.symbolCount ∧ c.symbolCount ≤ 2 * c.privateSymbols.size
  weakens : r.count .weakens =
    g.components.countP (fun c => 0 < c.exportedSymbols.size ∧ c.privateSymbols.size = 0) +
      g.dependencyEdges.countP g.carriesHidden

theorem supports_detect_iff (hsize : 2 ≤ g.size) (h : ∀ c ∈ g.components, ReadsHalf c)
    (weights : HidingWeights α) (id : ComponentId) :
    (detect weights g).supports id = true ↔ ∃ c ∈ g.components, c.id = id ∧
      0 < c.symbolCount ∧ c.symbolCount ≤ 2 * c.privateSymbols.size := by
  simp only [IntentResult.supports_iff, map_evidence_detect hsize, List.mem_append,
    List.mem_flatMap]
  constructor
  · rintro ⟨i, ⟨c, hc, hi⟩ | hi, hsignal, hid⟩
    · rw [map_symbolEvidence (h c hc)] at hi
      split_ifs at hi with hhalf hnone
      · cases List.mem_singleton.1 hi
        exact ⟨c, hc, (List.mem_singleton.1 hid).symm, hhalf⟩
      · cases List.mem_singleton.1 hi
        cases hsignal
      · cases hi
    · obtain ⟨e, _, rfl⟩ := List.mem_map.1 hi
      cases hsignal
  · rintro ⟨c, hc, rfl, hhalf⟩
    refine ⟨([c.id], .supports), .inl ⟨c, hc, ?_⟩, rfl, List.mem_singleton_self _⟩
    rw [map_symbolEvidence (h c hc), if_pos hhalf]
    exact List.mem_singleton_self _

theorem count_weakens_detect (hsize : 2 ≤ g.size) (h : ∀ c ∈ g.components, ReadsHalf c)
    (weights : HidingWeights α) :
    (detect weights g).count .weakens =
      g.components.countP (fun c => 0 < c.exportedSymbols.size ∧ c.privateSymbols.size = 0) +
        g.dependencyEdges.countP g.carriesHidden := by
  have hedges : ((g.dependencyEdges.filter g.carriesHidden).map fun e =>
      ([e.source, e.target], EvidenceSignal.weakens)).countP (·.2 = .weakens) =
        g.dependencyEdges.countP g.carriesHidden := by
    rw [List.countP_map, List.countP_eq_length_filter (p := g.carriesHidden),
      List.countP_eq_length]
    exact fun _ _ => rfl
  rw [IntentResult.count_eq, map_evidence_detect hsize, List.countP_append, hedges]
  congr 1
  refine countP_flatMap_of_forall fun c hc => ?_
  have hcount : c.symbolCount = c.exportedSymbols.size + c.privateSymbols.size := rfl
  simp only [map_symbolEvidence (h c hc), decide_eq_true_iff]
  split_ifs with hhalf hnone hnone
  · -- a component that keeps half of its symbols private keeps some
    omega
  · rfl
  · rfl
  · rfl

theorem accounts_detect (hsize : 2 ≤ g.size) (h : ∀ c ∈ g.components, ReadsHalf c)
    (weights : HidingWeights α) : Accounts g (detect weights g) :=
  ⟨supports_detect_iff hsize h weights, count_weakens_detect hsize h weights⟩

end Hiding

end

/-- In a graph of two components or more, the evidence of every intent accounts for the edges and
    components that it is about. Whether half of the symbols are private is exact in rational
    numbers, and in binary64 for fewer than `2^53` symbols. -/
theorem evidence_accounts_for_counts (k : LayerClassifier) (records : List ComponentRecord) :
    (∀ (build : GraphBuild Rat) (config : IntentConfig Rat),
      GraphBuild.ofRecords records = .ok build → 2 ≤ build.graph.size →
      Inversion.Accounts k build.graph
        (Inversion.detect k config.inversionWeights build.graph) ∧
      Separation.Accounts k build.graph
        (Separation.detect k config.separationWeights build.graph) ∧
      Hiding.Accounts build.graph (Hiding.detect config.hidingWeights build.graph)) ∧
    (∀ (build : GraphBuild Float) (config : IntentConfig Float),
      GraphBuild.ofRecords records = .ok build → 2 ≤ build.graph.size →
      Inversion.Accounts k build.graph
        (Inversion.detect k config.inversionWeights build.graph) ∧
      Separation.Accounts k build.graph
        (Separation.detect k config.separationWeights build.graph) ∧
      ((∀ c ∈ build.graph.components, c.symbolCount < 2 ^ 53) →
        Hiding.Accounts build.graph (Hiding.detect config.hidingWeights build.graph))) := by
  constructor
  · intro build config hbuild hsize
    have h := GraphBuild.wellFormed_of_ofRecords hbuild
    exact ⟨Inversion.accounts_detect h hsize k _, Separation.accounts_detect h hsize k _,
      Hiding.accounts_detect hsize (fun c _ => Hiding.readsHalf_rat c) _⟩
  · intro build config hbuild hsize
    have h := GraphBuild.wellFormed_of_ofRecords hbuild
    exact ⟨Inversion.accounts_detect h hsize k _, Separation.accounts_detect h hsize k _,
      fun hcounts => Hiding.accounts_detect hsize
        (fun c hc => Hiding.readsHalf_float (hcounts c hc)) _⟩

/-- A domain component of one feature that uses a symbol which the other component, of another
    feature, does not export. -/
def leakingRecords : List ComponentRecord :=
  [⟨"order", "order", "src/billing/domain/order.rs", 1, .ofList ["Order"], .ofList ["total"],
     [⟨"store", .imports, ["pool"]⟩], false, false⟩,
   ⟨"store", "store", "src/ledger/db/store.rs", 1, .ofList ["Store", "open"], .empty, [], false,
     false⟩]

def twoLayers : LayerClassifier :=
  ⟨[Glob.directory "domain"], [], [Glob.directory "db"], []⟩

theorem ofRecords_leakingRecords {α : Type} [Scalar α] :
    GraphBuild.ofRecords leakingRecords = .ok (GraphBuild.ofSorted leakingRecords : GraphBuild α) :=
  GraphBuild.ofRecords_of_ascending (by decide) (by decide)

/-- The domain component keeps half of its symbols private. Its dependency on the other one is
    evidence against inversion, against separation both by layer and by feature, and against
    hiding beside the other one itself. -/
theorem evidence_accounts_for_counts_leakingRecords :
    ∃ build : GraphBuild Float, GraphBuild.ofRecords leakingRecords = .ok build ∧
      (Inversion.detect twoLayers (IntentConfig.standard Float).inversionWeights
        build.graph).evidence.map Evidence.item = [(["order", "store"], .weakens)] ∧
      (Separation.detect twoLayers (IntentConfig.standard Float).separationWeights
        build.graph).count .weakens = 2 ∧
      (Hiding.detect (IntentConfig.standard Float).hidingWeights build.graph).supports "order" ∧
      (Hiding.detect (IntentConfig.standard Float).hidingWeights build.graph).count .weakens =
        2 := by
  refine ⟨_, ofRecords_leakingRecords, ?_⟩
  have hsize : 2 ≤ (GraphBuild.ofSorted leakingRecords : GraphBuild Float).graph.size := by
    decide +kernel
  have hcounts : ∀ c ∈ (GraphBuild.ofSorted leakingRecords : GraphBuild Float).graph.components,
      c.symbolCount < 2 ^ 53 := by
    decide +kernel
  have hwellFormed :=
    GraphBuild.wellFormed_of_ofRecords (α := Float) ofRecords_leakingRecords
  obtain ⟨hinversion, hseparation, hhiding⟩ :=
    (evidence_accounts_for_counts twoLayers leakingRecords).2 _ (.standard Float)
      ofRecords_leakingRecords hsize
  refine ⟨?_, ?_, ?_, ?_⟩
  · rw [hinversion.items]
    decide +kernel
  · rw [hseparation.weakens, ← Separation.length_domainPairs hwellFormed]
    decide +kernel
  · rw [(hhiding hcounts).supports_iff]
    decide +kernel
  · rw [(hhiding hcounts).weakens]
    decide +kernel

end ArchAudit
