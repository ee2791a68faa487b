-- SUMMARY: What collapsing edges keeps: one edge per key, in order, with the weights added up and the symbols united.
import ArchAudit.Graph.Build
import ArchAudit.Proofs.Names
import Mathlib.Data.List.Induction

/-!
# Collapsed edges

The key of an edge is its source, target and kind. `collapseEdges` holds one edge
per key that occurs, in strictly ascending order of keys; its weight is the sum of
the weights and its symbols are the union of the symbols under that key. These
facts determine the list, so it does not depend on the order of the edges given.
-/

namespace ArchAudit

theorem EdgeKind.eq_of_rank_eq {k k' : EdgeKind} (h : k.rank = k'.rank) : k = k' := by
  cases k <;> cases k' <;> first | rfl | cases h

namespace Edge

/-- What edges are collapsed by. -/
def key (e : Edge) : ComponentId × ComponentId × EdgeKind :=
  (e.source, e.target, e.kind)

/-- The strict order by source, then target, then kind. -/
def Before (e f : Edge) : Prop :=
  e.source < f.source ∨
    (e.source = f.source ∧
      (e.target < f.target ∨ (e.target = f.target ∧ e.kind.rank < f.kind.rank)))

-- ---------------------------------------------------------------------------
-- Order
-- ---------------------------------------------------------------------------

theorem precedes_iff {e f : Edge} : e.precedes f = true ↔ e.Before f := by
  simp [precedes, Before]

theorem before_irrefl (e : Edge) : ¬ e.Before e := by
  intro h
  simp [Before] at h

theorem Before.trans {e f g : Edge} (hef : e.Before f) (hfg : f.Before g) : e.Before g := by
  simp only [Before] at *
  rcases hef with hs | ⟨hs, hef⟩
  · rcases hfg with hs' | ⟨hs', _⟩
    · exact .inl (String.lt_trans hs hs')
    · exact .inl (hs' ▸ hs)
  · rw [hs]
    rcases hfg with hs' | ⟨hs', hfg⟩
    · exact .inl hs'
    · refine .inr ⟨hs', ?_⟩
      rcases hef with ht | ⟨ht, hk⟩
      · rcases hfg with ht' | ⟨ht', _⟩
        · exact .inl (String.lt_trans ht ht')
        · exact .inl (ht' ▸ ht)
      · rw [ht]
        rcases hfg with ht' | ⟨ht', hk'⟩
        · exact .inl ht'
        · exact .inr ⟨ht', Nat.lt_trans hk hk'⟩

theorem Before.asymm {e f : Edge} (h : e.Before f) : ¬ f.Before e :=
  fun h' => before_irrefl e (h.trans h')

/-- Edges of which neither comes first have the same key. -/
theorem key_eq_of_not_before {e f : Edge} (hef : ¬ e.Before f) (hfe : ¬ f.Before e) :
    e.key = f.key := by
  simp only [Before, not_or, not_and, String.not_lt, Nat.not_lt] at hef hfe
  have hs : e.source = f.source := String.le_antisymm hfe.1 hef.1
  have ht : e.target = f.target :=
    String.le_antisymm (hfe.2 hs.symm).1 (hef.2 hs).1
  have hk : e.kind = f.kind :=
    EdgeKind.eq_of_rank_eq
      (Nat.le_antisymm ((hfe.2 hs.symm).2 ht.symm) ((hef.2 hs).2 ht))
  simp [key, hs, ht, hk]

/-- The order looks at nothing but the keys. -/
theorem before_congr {e e' f f' : Edge} (he : e.key = e'.key) (hf : f.key = f'.key) :
    e.Before f ↔ e'.Before f' := by
  simp only [key, Prod.mk.injEq] at he hf
  simp only [Before, he.1, he.2.1, he.2.2, hf.1, hf.2.1, hf.2.2]

theorem Before.key_ne {e f : Edge} (h : e.Before f) : e.key ≠ f.key :=
  fun hkey => before_irrefl e ((before_congr rfl hkey).2 h)

@[simp] theorem key_merge (e f : Edge) : (e.merge f).key = e.key := rfl

@[simp] theorem weight_merge (e f : Edge) : (e.merge f).weight = e.weight + f.weight := rfl

@[simp] theorem symbols_merge (e f : Edge) : (e.merge f).symbols = e.symbols.union f.symbols := rfl

-- ---------------------------------------------------------------------------
-- Insertion
-- ---------------------------------------------------------------------------

/-- The three ways in which an edge finds its place, by the order of keys. -/
theorem insert_cons (e f : Edge) (l : List Edge) :
    (e.Before f ∧ e.insert (f :: l) = e :: f :: l) ∨
    (f.Before e ∧ e.insert (f :: l) = f :: e.insert l) ∨
    (e.key = f.key ∧ e.insert (f :: l) = f.merge e :: l) := by
  by_cases hef : e.Before f
  · refine .inl ⟨hef, ?_⟩
    rw [insert, if_pos (precedes_iff.2 hef)]
  · have hef' : ¬ e.precedes f = true := fun h => hef (precedes_iff.1 h)
    by_cases hfe : f.Before e
    · refine .inr (.inl ⟨hfe, ?_⟩)
      rw [insert, if_neg hef', if_pos (precedes_iff.2 hfe)]
    · have hfe' : ¬ f.precedes e = true := fun h => hfe (precedes_iff.1 h)
      refine .inr (.inr ⟨key_eq_of_not_before hef hfe, ?_⟩)
      rw [insert, if_neg hef', if_neg hfe']

theorem mem_keys_insert {e : Edge} {l : List Edge} {k : ComponentId × ComponentId × EdgeKind} :
    k ∈ (e.insert l).map key ↔ k = e.key ∨ k ∈ l.map key := by
  induction l with
  | nil => simp [insert]
  | cons f l ih =>
    rcases insert_cons e f l with ⟨_, h⟩ | ⟨_, h⟩ | ⟨hkey, h⟩
    · rw [h, List.map_cons, List.mem_cons]
    · rw [h, List.map_cons, List.mem_cons, ih, List.map_cons, List.mem_cons]
      tauto
    · rw [h, List.map_cons, List.mem_cons, key_merge, List.map_cons, List.mem_cons, hkey]
      tauto

theorem pairwise_insert {e : Edge} {l : List Edge} (h : l.Pairwise Before) :
    (e.insert l).Pairwise Before := by
  induction l with
  | nil => exact List.pairwise_singleton _ _
  | cons f l ih =>
    obtain ⟨hf, hl⟩ := List.pairwise_cons.1 h
    rcases insert_cons e f l with ⟨hef, heq⟩ | ⟨hfe, heq⟩ | ⟨_, heq⟩
    · rw [heq]
      refine List.pairwise_cons.2 ⟨fun g hg => ?_, h⟩
      rcases List.mem_cons.1 hg with rfl | hg
      · exact hef
      · exact hef.trans (hf g hg)
    · rw [heq]
      refine List.pairwise_cons.2 ⟨fun g hg => ?_, ih hl⟩
      have hkeys := mem_keys_insert.1 (List.mem_map_of_mem (f := key) hg)
      rcases hkeys with hkey | hkey
      · exact (before_congr rfl hkey).2 hfe
      · obtain ⟨g', hg', hkey⟩ := List.mem_map.1 hkey
        exact (before_congr rfl hkey).1 (hf g' hg')
    · rw [heq]
      refine List.pairwise_cons.2 ⟨fun g hg => ?_, hl⟩
      exact (before_congr (key_merge f e) rfl).2 (hf g hg)

@[simp]
theorem totalWeight_nil : totalWeight [] = 0 := rfl

@[simp]
theorem totalWeight_cons (e : Edge) (l : List Edge) :
    totalWeight (e :: l) = e.weight + totalWeight l := rfl

@[simp]
theorem totalWeight_append (l l' : List Edge) :
    totalWeight (l ++ l') = totalWeight l + totalWeight l' := by
  induction l with
  | nil => simp
  | cons e l ih =>
    rw [List.cons_append, totalWeight_cons, totalWeight_cons, ih, Nat.add_assoc]

theorem totalWeight_perm {l l' : List Edge} (h : l.Perm l') : totalWeight l = totalWeight l' :=
  h.foldr_eq' (fun e _ f _ total => Nat.add_left_comm f.weight e.weight total) 0

/-- The weight of the edges under a key. -/
def weightAt (k : ComponentId × ComponentId × EdgeKind) (l : List Edge) : Nat :=
  totalWeight (l.filter (·.key = k))

theorem weightAt_cons (k : ComponentId × ComponentId × EdgeKind) (e : Edge) (l : List Edge) :
    weightAt k (e :: l) = (if e.key = k then e.weight else 0) + weightAt k l := by
  by_cases h : e.key = k <;> simp [weightAt, h]

theorem weightAt_append (k : ComponentId × ComponentId × EdgeKind) (l l' : List Edge) :
    weightAt k (l ++ l') = weightAt k l + weightAt k l' := by
  simp [weightAt]

/-- An edge under the key carries the symbol. -/
def CarriesAt (k : ComponentId × ComponentId × EdgeKind) (x : String) (l : List Edge) : Prop :=
  ∃ e ∈ l, e.key = k ∧ x ∈ e.symbols.toList

theorem carriesAt_cons {k : ComponentId × ComponentId × EdgeKind} {x : String} {e : Edge}
    {l : List Edge} :
    CarriesAt k x (e :: l) ↔ (e.key = k ∧ x ∈ e.symbols.toList) ∨ CarriesAt k x l := by
  simp [CarriesAt]

theorem weightAt_insert (k : ComponentId × ComponentId × EdgeKind) (e : Edge) (l : List Edge) :
    weightAt k (e.insert l) = weightAt k (e :: l) := by
  induction l with
  | nil => rfl
  | cons f l ih =>
    rcases insert_cons e f l with ⟨_, h⟩ | ⟨_, h⟩ | ⟨hkey, h⟩
    · rw [h]
    · rw [h]
      simp only [weightAt_cons] at ih ⊢
      omega
    · rw [h, weightAt_cons, weightAt_cons, weightAt_cons, hkey, weight_merge]
      change (if f.key = k then f.weight + e.weight else 0) + weightAt k l = _
      by_cases hk : f.key = k
      · rw [if_pos hk, if_pos hk, if_pos hk]
        omega
      · rw [if_neg hk, if_neg hk, if_neg hk]
        omega

theorem carriesAt_insert {k : ComponentId × ComponentId × EdgeKind} {x : String} {e : Edge}
    {l : List Edge} : CarriesAt k x (e.insert l) ↔ CarriesAt k x (e :: l) := by
  induction l with
  | nil => rfl
  | cons f l ih =>
    rcases insert_cons e f l with ⟨_, h⟩ | ⟨_, h⟩ | ⟨hkey, h⟩
    · rw [h]
    · rw [h]
      simp only [carriesAt_cons] at ih ⊢
      rw [ih]
      tauto
    · rw [h]
      simp only [carriesAt_cons, key_merge, symbols_merge, NameSet.mem_union, hkey]
      tauto

theorem totalWeight_insert (e : Edge) (l : List Edge) :
    totalWeight (e.insert l) = e.weight + totalWeight l := by
  induction l with
  | nil => rfl
  | cons f l ih =>
    rcases insert_cons e f l with ⟨_, h⟩ | ⟨_, h⟩ | ⟨_, h⟩
    · rw [h]
      simp
    · rw [h]
      simp only [totalWeight_cons, ih]
      omega
    · rw [h]
      simp only [totalWeight_cons, weight_merge]
      omega

/-- In an ascending list each key occurs once. -/
theorem eq_of_key_eq {l : List Edge} (h : l.Pairwise Before) {e f : Edge} (he : e ∈ l)
    (hf : f ∈ l) (hkey : e.key = f.key) : e = f := by
  induction l with
  | nil => cases he
  | cons g l ih =>
    obtain ⟨hg, hl⟩ := List.pairwise_cons.1 h
    rcases List.mem_cons.1 he with rfl | he
    · rcases List.mem_cons.1 hf with rfl | hf
      · rfl
      · exact absurd hkey (hg f hf).key_ne
    · rcases List.mem_cons.1 hf with rfl | hf
      · exact absurd hkey.symm (hg e ‹e ∈ l›).key_ne
      · exact ih hl ‹e ∈ l› hf

theorem weightAt_eq_zero {k : ComponentId × ComponentId × EdgeKind} {l : List Edge}
    (h : k ∉ l.map key) : weightAt k l = 0 := by
  have hnil : l.filter (·.key = k) = [] := by
    refine List.filter_eq_nil_iff.2 fun e he => ?_
    simpa using fun hkey => h (List.mem_map.2 ⟨e, he, hkey⟩)
  simp [weightAt, hnil]

/-- In an ascending list the weight under a key is that of its one edge. -/
theorem weightAt_of_mem {l : List Edge} (h : l.Pairwise Before) {e : Edge} (he : e ∈ l) :
    weightAt e.key l = e.weight := by
  induction l with
  | nil => cases he
  | cons f l ih =>
    obtain ⟨hf, hl⟩ := List.pairwise_cons.1 h
    rw [weightAt_cons]
    rcases List.mem_cons.1 he with rfl | he'
    · have hnot : e.key ∉ l.map key := by
        intro hmem
        obtain ⟨g, hg, hkey⟩ := List.mem_map.1 hmem
        exact (hf g hg).key_ne hkey.symm
      rw [if_pos rfl, weightAt_eq_zero hnot]
      rfl
    · rw [if_neg (hf e he').key_ne, ih hl he']
      exact Nat.zero_add _

end Edge

-- ---------------------------------------------------------------------------
-- Collapsing
-- ---------------------------------------------------------------------------

open Edge

section Collapse

variable {l l' : List Edge}

/-- Collapsing one more edge inserts it. -/
theorem collapseEdges_concat (l : List Edge) (e : Edge) :
    collapseEdges (l ++ [e]) = e.insert (collapseEdges l) := by
  simp [collapseEdges]

theorem pairwise_collapseEdges (l : List Edge) : (collapseEdges l).Pairwise Before := by
  induction l using List.reverseRecOn with
  | nil => exact .nil
  | append_singleton l e ih =>
    rw [collapseEdges_concat]
    exact pairwise_insert ih

theorem mem_keys_collapseEdges {k : ComponentId × ComponentId × EdgeKind} :
    k ∈ (collapseEdges l).map key ↔ k ∈ l.map key := by
  induction l using List.reverseRecOn with
  | nil => rfl
  | append_singleton l e ih =>
    rw [collapseEdges_concat, mem_keys_insert, ih]
    simp [or_comm, eq_comm]

theorem weightAt_collapseEdges (k : ComponentId × ComponentId × EdgeKind) :
    weightAt k (collapseEdges l) = weightAt k l := by
  induction l using List.reverseRecOn with
  | nil => rfl
  | append_singleton l e ih =>
    rw [collapseEdges_concat, weightAt_insert, weightAt_cons, ih, weightAt_append, weightAt_cons]
    exact Nat.add_comm _ _

theorem carriesAt_collapseEdges {k : ComponentId × ComponentId × EdgeKind} {x : String} :
    CarriesAt k x (collapseEdges l) ↔ CarriesAt k x l := by
  induction l using List.reverseRecOn with
  | nil => rfl
  | append_singleton l e ih =>
    rw [collapseEdges_concat, carriesAt_insert, carriesAt_cons, ih]
    simp only [CarriesAt, List.mem_append, List.mem_singleton]
    grind

/-- No weight is lost or counted twice. -/
theorem totalWeight_collapseEdges (l : List Edge) :
    Edge.totalWeight (collapseEdges l) = Edge.totalWeight l := by
  induction l using List.reverseRecOn with
  | nil => rfl
  | append_singleton l e ih =>
    rw [collapseEdges_concat, totalWeight_insert, ih]
    simp [Nat.add_comm]

/-- An edge gathers all that a list holds under its key. -/
structure Edge.Gathers (e : Edge) (l : List Edge) : Prop where
  occurs : e.key ∈ l.map key
  weight : e.weight = weightAt e.key l
  symbols : ∀ x, x ∈ e.symbols.toList ↔ CarriesAt e.key x l

/-- The collapsed edges are those that gather all under some key of the list. -/
theorem mem_collapseEdges {e : Edge} : e ∈ collapseEdges l ↔ e.Gathers l := by
  have hsorted := pairwise_collapseEdges l
  constructor
  · intro he
    refine ⟨mem_keys_collapseEdges.1 (List.mem_map_of_mem he), ?_, fun x => ?_⟩
    · rw [← weightAt_collapseEdges, weightAt_of_mem hsorted he]
    · rw [← carriesAt_collapseEdges]
      constructor
      · exact fun hx => ⟨e, he, rfl, hx⟩
      · rintro ⟨f, hf, hkey, hx⟩
        exact eq_of_key_eq hsorted hf he hkey ▸ hx
  · intro h
    obtain ⟨f, hf, hkey⟩ := List.mem_map.1 (mem_keys_collapseEdges.2 h.occurs)
    have hweight : e.weight = f.weight := by
      rw [h.weight, ← hkey, ← weightAt_collapseEdges, weightAt_of_mem hsorted hf]
    have hsymbols : e.symbols = f.symbols := by
      refine NameSet.ext_mem fun x => ?_
      rw [h.symbols, ← carriesAt_collapseEdges]
      constructor
      · rintro ⟨f', hf', hkey', hx⟩
        exact eq_of_key_eq hsorted hf' hf (hkey'.trans hkey.symm) ▸ hx
      · exact fun hx => ⟨f, hf, hkey, hx⟩
    obtain ⟨s, t, k, w, y⟩ := e
    obtain ⟨s', t', k', w', y'⟩ := f
    simp only [key, Prod.mk.injEq] at hkey hweight hsymbols
    obtain ⟨rfl, rfl, rfl⟩ := hkey
    subst hweight hsymbols
    exact hf

theorem Edge.Gathers.perm {e : Edge} (h : l.Perm l') (he : e.Gathers l) : e.Gathers l' where
  occurs := (h.map key).mem_iff.1 he.occurs
  weight := he.weight.trans (totalWeight_perm (h.filter _))
  symbols x := by
    rw [he.symbols]
    simp only [CarriesAt, h.mem_iff]

/-- An edge gathers from the edges of its own key only. -/
theorem Edge.Gathers.congr {e : Edge} (h : l.filter (·.key = e.key) = l'.filter (·.key = e.key))
    (he : e.Gathers l) : e.Gathers l' := by
  have hmem : ∀ f, f.key = e.key → (f ∈ l ↔ f ∈ l') := by
    intro f hkey
    have hiff : f ∈ l.filter (·.key = e.key) ↔ f ∈ l'.filter (·.key = e.key) := by rw [h]
    simpa [hkey] using hiff
  refine ⟨?_, ?_, ?_⟩
  · obtain ⟨f, hf, hkey⟩ := List.mem_map.1 he.occurs
    exact List.mem_map.2 ⟨f, (hmem f hkey).1 hf, hkey⟩
  · rw [he.weight, weightAt, h, weightAt]
  · intro x
    rw [he.symbols]
    constructor
    · rintro ⟨f, hf, hkey, hx⟩
      exact ⟨f, (hmem f hkey).1 hf, hkey, hx⟩
    · rintro ⟨f, hf, hkey, hx⟩
      exact ⟨f, (hmem f hkey).2 hf, hkey, hx⟩

/-- Ascending lists with the same edges are equal. -/
theorem Edge.eq_of_mem_iff (h : l.Pairwise Before) (h' : l'.Pairwise Before)
    (hmem : ∀ e, e ∈ l ↔ e ∈ l') : l = l' := by
  have : Std.Irrefl Before := ⟨before_irrefl⟩
  have : Std.Antisymm Before := ⟨fun _ _ hab hba => absurd hba hab.asymm⟩
  exact h.eq_of_mem_iff h' hmem

/-- Collapsing does not depend on the order of the edges. -/
theorem collapseEdges_perm (h : l.Perm l') : collapseEdges l = collapseEdges l' := by
  apply Edge.eq_of_mem_iff (pairwise_collapseEdges l) (pairwise_collapseEdges l')
  intro e
  rw [mem_collapseEdges, mem_collapseEdges]
  exact ⟨.perm h, .perm h.symm⟩

/-- A test of keys selects the same edges before and after collapsing. -/
theorem filter_collapseEdges {p : Edge → Bool} (hp : ∀ e f, e.key = f.key → p e = p f)
    (l : List Edge) : (collapseEdges l).filter p = collapseEdges (l.filter p) := by
  apply Edge.eq_of_mem_iff ((pairwise_collapseEdges l).filter p) (pairwise_collapseEdges _)
  intro e
  have hown : p e = true → l.filter (·.key = e.key) = (l.filter p).filter (·.key = e.key) := by
    intro he
    rw [List.filter_filter]
    apply List.filter_congr
    intro f _
    by_cases hkey : f.key = e.key
    · simp [hkey, hp f e hkey, he]
    · simp [hkey]
  rw [List.mem_filter, mem_collapseEdges, mem_collapseEdges]
  constructor
  · rintro ⟨hgathers, he⟩
    exact hgathers.congr (hown he)
  · intro hgathers
    obtain ⟨f, hf, hkey⟩ := List.mem_map.1 hgathers.occurs
    have he : p e = true := hp f e hkey ▸ (List.mem_filter.1 hf).2
    exact ⟨hgathers.congr (hown he).symm, he⟩

end Collapse

end ArchAudit
