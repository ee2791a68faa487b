-- SUMMARY: The search from a node finds distances, numbers of shortest paths and predecessors.
import ArchAudit.Proofs.ExactScalars
import ArchAudit.Proofs.Walks

/-!
# Breadth-first search

The state of a search is described by the list of arcs it has followed. While a node is
expanded, no node is more than one step farther away than it, and the nodes expanded before
are no farther away. So an arc adds paths only to a node that is expanded later, and the
numbers of paths that were passed on stay as they are. A finished search has followed all arcs
that leave the nodes it found.
-/

namespace ArchAudit.Adjacency

open Finset (range)

/-- The arcs that leave the nodes of a list. -/
def arcsFrom (g : Adjacency) (nodes : List Nat) : List (Nat × Nat) :=
  nodes.flatMap fun u => (g.successors u).map fun w => (u, w)

theorem mem_arcsFrom {g : Adjacency} {nodes : List Nat} {u w : Nat} :
    (u, w) ∈ g.arcsFrom nodes ↔ u ∈ nodes ∧ w ∈ g.successors u := by
  simp only [arcsFrom, List.mem_flatMap, List.mem_map, Prod.mk.injEq]
  constructor
  · rintro ⟨x, hx, y, hy, rfl, rfl⟩
    exact ⟨hx, hy⟩
  · rintro ⟨hu, hw⟩
    exact ⟨u, hu, w, hw, rfl, rfl⟩

theorem arcsFrom_concat (g : Adjacency) (nodes : List Nat) (v : Nat) :
    g.arcsFrom (nodes ++ [v]) = g.arcsFrom nodes ++ (g.successors v).map fun w => (v, w) := by
  simp [arcsFrom]

theorem mem_concat_arc {arcs : List (Nat × Nat)} {u v w x : Nat} :
    (u, x) ∈ arcs ++ [(v, w)] ↔ (u, x) ∈ arcs ∨ u = v ∧ x = w := by
  rw [List.mem_append, List.mem_singleton, Prod.mk.injEq]

theorem count_arcsFrom {g : Adjacency} {nodes : List Nat} (hnodup : nodes.Nodup) (u w : Nat) :
    (g.arcsFrom nodes).count (u, w) = if u ∈ nodes then (g.successors u).count w else 0 := by
  induction nodes with
  | nil => rfl
  | cons x nodes ih =>
    obtain ⟨hx, hnodup⟩ := List.nodup_cons.1 hnodup
    rw [arcsFrom, List.flatMap_cons, List.count_append, ← arcsFrom, ih hnodup]
    by_cases hux : u = x
    · subst hux
      rw [List.count_map_of_injective _ _ (Prod.mk_right_injective u)]
      simp [hx]
    · have hnot : (u, w) ∉ (g.successors x).map fun w => (x, w) := by
        simp [Ne.symm hux]
      simp [List.count_eq_zero_of_not_mem hnot, hux]

/-- The start nodes of the arcs to a node, restricted to some. -/
theorem count_map_fst_filter {arcs : List (Nat × Nat)} {c : Nat → Prop} [DecidablePred c]
    (u w : Nat) :
    ((arcs.filter fun a => a.2 = w ∧ c a.1).map (·.1)).count u =
      if c u then arcs.count (u, w) else 0 := by
  induction arcs with
  | nil => simp
  | cons a arcs ih =>
    obtain ⟨x, y⟩ := a
    by_cases hy : y = w <;> by_cases hx : x = u <;> by_cases hc : c x <;> simp_all

namespace Search

/-! ## What following an arc changes -/

section View

variable {α : Type}

@[simp] theorem order_update (s : Search α) (v : Nat) (f : Visit α → Visit α) :
    (s.update v f).order = s.order := rfl

@[simp] theorem expanded_update (s : Search α) (v : Nat) (f : Visit α → Visit α) :
    (s.update v f).expanded = s.expanded := rfl

@[simp] theorem size_update (s : Search α) (v : Nat) (f : Visit α → Visit α) :
    (s.update v f).visits.size = s.visits.size :=
  Array.size_modify

variable [Scalar α] {s : Search α} {d u v w : Nat} {p : α}

/-- How far a node is known to be away. -/
def level (s : Search α) (v : Nat) : Nat :=
  (s.visit v).distance.getD 0

theorem visit_update (hv : v < s.visits.size) (f : Visit α → Visit α) (u : Nat) :
    (s.update v f).visit u = if u = v then f (s.visit v) else s.visit u := by
  have hsome : s.visits[v]? = some s.visits[v] := Array.getElem?_eq_getElem hv
  by_cases huv : u = v
  · subst huv
    simp [visit, update, Array.getElem?_modify, hsome]
  · simp [visit, update, Array.getElem?_modify, huv, Ne.symm huv]

/-- Nothing changes if the arc leads to a node that is known to be nearer. -/
theorem follow_of_ne {k : Nat} (hk : (s.visit w).distance = some k) (hne : k ≠ d + 1) :
    follow v d p s w = s := by
  simp [follow, discover, hk, hne]

theorem order_follow (s : Search α) (v d : Nat) (p : α) (w : Nat) :
    (follow v d p s w).order =
      if (s.visit w).distance = none then s.order.push w else s.order := by
  unfold follow discover
  cases hk : (s.visit w).distance <;> simp <;> split <;> simp

@[simp] theorem expanded_follow (s : Search α) (v d : Nat) (p : α) (w : Nat) :
    (follow v d p s w).expanded = s.expanded := by
  unfold follow discover
  cases hk : (s.visit w).distance <;> simp <;> split <;> simp

@[simp] theorem size_follow (s : Search α) (v d : Nat) (p : α) (w : Nat) :
    (follow v d p s w).visits.size = s.visits.size := by
  unfold follow discover
  cases hk : (s.visit w).distance <;> simp <;> split <;> simp

/-- A node that is new or one step away gets the paths and one more predecessor. -/
theorem visit_follow (hw : w < s.visits.size)
    (hnear : ∀ k, (s.visit w).distance = some k → k = d + 1) (u : Nat) :
    (follow v d p s w).visit u =
      if u = w then
        ⟨some (d + 1), (s.visit w).paths + p, (s.visit w).predecessors ++ [v]⟩
      else s.visit u := by
  have hdiscover : ∀ x, (s.discover w (d + 1)).visit x =
      if x = w then { s.visit w with distance := some (d + 1) } else s.visit x := by
    intro x
    unfold discover
    cases hk : (s.visit w).distance with
    | none => exact visit_update hw _ x
    | some k =>
      obtain rfl := hnear k hk
      by_cases hx : x = w
      · simp only [hx, Option.isNone_some, Bool.false_eq_true, if_false, if_true]
        rw [← hk]
      · simp [hx]
  have hsize : w < (s.discover w (d + 1)).visits.size := by
    unfold discover
    split <;> simpa using hw
  have hself := hdiscover w
  rw [if_pos rfl] at hself
  simp only [follow, hself, if_true, visit_update hsize, hdiscover]
  split <;> rfl

end View

/-! ## Invariants -/

/-- The order lists the nodes with a known distance, each once and nearer ones first. -/
structure Labelled (g : Adjacency) (source : Nat) (s : Search Rat) : Prop where
  size : s.visits.size = g.size
  nodup : s.order.toList.Nodup
  unknown_iff : ∀ v, (s.visit v).distance = none ↔ v ∉ s.order
  ordered : s.order.toList.Pairwise fun u w => s.level u ≤ s.level w
  source_mem : source ∈ s.order
  source_level : s.level source = 0

/-- Distances, predecessors and numbers of paths are what the arcs followed so far imply. -/
structure Recorded (source : Nat) (arcs : List (Nat × Nat)) (s : Search Rat) : Prop where
  arc : ∀ u w, (u, w) ∈ arcs → u ∈ s.order ∧ w ∈ s.order ∧ s.level w ≤ s.level u + 1
  found : ∀ w ∈ s.order, w ≠ source → ∃ u, (u, w) ∈ arcs ∧ s.level w = s.level u + 1
  predecessors : ∀ w, (s.visit w).predecessors =
    (arcs.filter fun a => a.2 = w ∧ s.level w = s.level a.1 + 1).map (·.1)
  paths : ∀ w, (s.visit w).paths = (if w = source then 1 else 0) +
    ((s.visit w).predecessors.map fun u => (s.visit u).paths).sum

/-- The node `v`, at distance `d` and with `p` paths, is being expanded. -/
structure Expanding (v d : Nat) (p : Rat) (arcs : List (Nat × Nat)) (s : Search Rat) : Prop where
  mem : v ∈ s.order
  level : s.level v = d
  paths : (s.visit v).paths = p
  past : ∀ u w, (u, w) ∈ arcs → s.level u ≤ d
  span : ∀ u ∈ s.order, s.level u ≤ d + 1

variable {g : Adjacency} {source d u v w : Nat} {p : Rat} {arcs : List (Nat × Nat)}
  {s : Search Rat}

/-- An arc leads to a node that is known to be nearer, or else to a new node or a node one
    step farther away. -/
theorem far_or_near (s : Search Rat) (d w : Nat) :
    (w ∈ s.order ∧ s.level w ≠ d + 1) ∨ (w ∈ s.order → s.level w = d + 1) := by
  by_cases hw : w ∈ s.order <;> by_cases hlevel : s.level w = d + 1 <;> simp [hw, hlevel]

namespace Labelled

theorem distance_eq (h : Labelled g source s) (hv : v ∈ s.order) :
    (s.visit v).distance = some (s.level v) := by
  cases hk : (s.visit v).distance with
  | none => exact absurd hv ((h.unknown_iff v).1 hk)
  | some k => simp [level, hk]

theorem lt_size (h : Labelled g source s) (hv : v ∈ s.order) : v < g.size := by
  by_contra hge
  have hnone : s.visits[v]? = none := Array.getElem?_eq_none (by rw [h.size]; omega)
  refine (h.unknown_iff v).1 ?_ hv
  simp [visit, hnone]

theorem size_order_le (h : Labelled g source s) : s.order.size ≤ g.size := by
  have hsub : s.order.toList ⊆ List.range g.size := by
    intro v hv
    exact List.mem_range.2 (h.lt_size (Array.mem_toList_iff.1 hv))
  simpa using (h.nodup.subperm hsub).length_le

theorem follow_far (h : Labelled g source s) (hw : w ∈ s.order ∧ s.level w ≠ d + 1) :
    follow v d p s w = s :=
  follow_of_ne (h.distance_eq hw.1) hw.2

theorem visit_follow_near (h : Labelled g source s) (hw : w < g.size)
    (hnear : w ∈ s.order → s.level w = d + 1) (u : Nat) :
    (follow v d p s w).visit u =
      if u = w then
        ⟨some (d + 1), (s.visit w).paths + p, (s.visit w).predecessors ++ [v]⟩
      else s.visit u := by
  apply visit_follow (by rwa [h.size])
  intro k hk
  have hmem : w ∈ s.order := by
    by_contra hnot
    rw [(h.unknown_iff w).2 hnot] at hk
    cases hk
  rw [h.distance_eq hmem, Option.some.injEq] at hk
  rw [← hk, hnear hmem]

theorem level_follow_near (h : Labelled g source s) (hw : w < g.size)
    (hnear : w ∈ s.order → s.level w = d + 1) : (follow v d p s w).level w = d + 1 := by
  rw [level, h.visit_follow_near hw hnear, if_pos rfl]
  rfl

/-- Distances that are known stay as they are. -/
theorem level_follow (h : Labelled g source s) (hw : w < g.size) (hu : u ∈ s.order) :
    (follow v d p s w).level u = s.level u := by
  rcases far_or_near s d w with hfar | hnear
  · rw [h.follow_far hfar]
  · by_cases huw : u = w
    · subst huw
      rw [h.level_follow_near hw hnear, hnear hu]
    · rw [level, h.visit_follow_near hw hnear, if_neg huw, level]

theorem toList_order_follow (h : Labelled g source s) :
    (follow v d p s w).order.toList =
      if w ∈ s.order then s.order.toList else s.order.toList ++ [w] := by
  rw [order_follow]
  by_cases hw : w ∈ s.order
  · rw [if_neg (mt (h.unknown_iff w).1 (not_not.2 hw)), if_pos hw]
  · rw [if_pos ((h.unknown_iff w).2 hw), if_neg hw, Array.toList_push]

theorem mem_order_follow (h : Labelled g source s) :
    u ∈ (follow v d p s w).order ↔ u ∈ s.order ∨ u = w := by
  rw [← Array.mem_toList_iff, h.toList_order_follow]
  by_cases hw : w ∈ s.order
  · rw [if_pos hw, Array.mem_toList_iff]
    exact ⟨.inl, fun hu => hu.elim id fun huw => huw ▸ hw⟩
  · simp [hw]

theorem follow (h : Labelled g source s) (he : Expanding v d p arcs s) (hw : w < g.size) :
    Labelled g source (follow v d p s w) where
  size := by rw [size_follow, h.size]
  nodup := by
    rw [h.toList_order_follow]
    by_cases hmem : w ∈ s.order
    · simpa [hmem] using h.nodup
    · simpa [hmem, List.nodup_append] using ⟨h.nodup, fun a ha haw => hmem (haw ▸ ha)⟩
  unknown_iff u := by
    rw [h.mem_order_follow]
    rcases far_or_near s d w with hfar | hnear
    · rw [h.follow_far hfar, h.unknown_iff]
      by_cases huw : u = w <;> simp [huw, hfar.1]
    · rw [h.visit_follow_near hw hnear]
      by_cases huw : u = w <;> simp [huw, h.unknown_iff]
  ordered := by
    have hsame : s.order.toList.Pairwise fun a b =>
        (Search.follow v d p s w).level a ≤ (Search.follow v d p s w).level b := by
      apply h.ordered.imp_of_mem
      intro a b ha hb hle
      rwa [h.level_follow hw (Array.mem_toList_iff.1 ha),
        h.level_follow hw (Array.mem_toList_iff.1 hb)]
    rw [h.toList_order_follow]
    by_cases hmem : w ∈ s.order
    · rwa [if_pos hmem]
    · rw [if_neg hmem, List.pairwise_append]
      refine ⟨hsame, List.pairwise_singleton _ _, fun a ha b hb => ?_⟩
      obtain rfl := List.mem_singleton.1 hb
      have ha' := Array.mem_toList_iff.1 ha
      rw [h.level_follow hw ha', h.level_follow_near hw fun hmem' => absurd hmem' hmem]
      exact he.span a ha'
  source_mem := h.mem_order_follow.2 (.inl h.source_mem)
  source_level := by rw [h.level_follow hw h.source_mem, h.source_level]

end Labelled

namespace Expanding

/-- Nothing that arcs followed so far start from is changed by an arc that is followed now. -/
theorem ne_of_near (he : Expanding v d p arcs s) (hr : Recorded source arcs s)
    (hnear : w ∈ s.order → s.level w = d + 1) {u x : Nat} (hu : (u, x) ∈ arcs ++ [(v, w)]) :
    u ∈ s.order ∧ u ≠ w := by
  have hle : u ∈ s.order ∧ s.level u ≤ d := by
    rcases mem_concat_arc.1 hu with hu | ⟨rfl, rfl⟩
    · exact ⟨(hr.arc u x hu).1, he.past u x hu⟩
    · exact ⟨he.mem, he.level.le⟩
  refine ⟨hle.1, ?_⟩
  rintro rfl
  have := hnear hle.1
  omega

theorem follow (he : Expanding v d p arcs s) (h : Labelled g source s) (hr : Recorded source arcs s)
    (hw : w < g.size) : Expanding v d p (arcs ++ [(v, w)]) (follow v d p s w) where
  mem := h.mem_order_follow.2 (.inl he.mem)
  level := by rw [h.level_follow hw he.mem, he.level]
  paths := by
    rcases far_or_near s d w with hfar | hnear
    · rw [h.follow_far hfar, he.paths]
    · obtain ⟨_, hne⟩ := he.ne_of_near hr hnear (List.mem_append_right _ List.mem_cons_self)
      rw [h.visit_follow_near hw hnear, if_neg hne, he.paths]
  past u x hu := by
    rcases mem_concat_arc.1 hu with hu | ⟨rfl, rfl⟩
    · rw [h.level_follow hw (hr.arc u x hu).1]
      exact he.past u x hu
    · rw [h.level_follow hw he.mem, he.level]
  span u hu := by
    by_cases hmem : u ∈ s.order
    · rw [h.level_follow hw hmem]
      exact he.span u hmem
    · obtain rfl := (h.mem_order_follow.1 hu).resolve_left hmem
      rw [h.level_follow_near hw fun hmem' => absurd hmem' hmem]

end Expanding

namespace Recorded

theorem follow_far (hr : Recorded source arcs s) (he : Expanding v d p arcs s)
    (hw : w ∈ s.order ∧ s.level w ≠ d + 1) : Recorded source (arcs ++ [(v, w)]) s where
  arc u x hu := by
    rcases mem_concat_arc.1 hu with hu | ⟨rfl, rfl⟩
    · exact hr.arc u x hu
    · rw [he.level]
      exact ⟨he.mem, hw.1, he.span x hw.1⟩
  found x hx hne := by
    obtain ⟨u, hu, hlevel⟩ := hr.found x hx hne
    exact ⟨u, List.mem_append_left _ hu, hlevel⟩
  predecessors x := by
    have hnone : ¬ (w = x ∧ s.level x = s.level v + 1) := by
      rintro ⟨rfl, hlevel⟩
      exact hw.2 (by rw [hlevel, he.level])
    rw [hr.predecessors, List.filter_append, List.filter_singleton]
    simp [hnone]
  paths := hr.paths

theorem predecessors_follow_near (hr : Recorded source arcs s) (h : Labelled g source s)
    (he : Expanding v d p arcs s) (hw : w < g.size) (hnear : w ∈ s.order → s.level w = d + 1)
    (x : Nat) :
    ((Search.follow v d p s w).visit x).predecessors =
      ((arcs ++ [(v, w)]).filter fun a => a.2 = x ∧
        (Search.follow v d p s w).level x = (Search.follow v d p s w).level a.1 + 1).map (·.1) := by
  -- Arcs that were followed before connect nodes whose distances stay as they are.
  have hold : (arcs.filter fun a => a.2 = x ∧
      (Search.follow v d p s w).level x = (Search.follow v d p s w).level a.1 + 1) =
      arcs.filter fun a => a.2 = x ∧ s.level x = s.level a.1 + 1 := by
    apply List.filter_congr
    rintro ⟨a, b⟩ hab
    obtain ⟨ha, hb, _⟩ := hr.arc a b hab
    rw [decide_eq_decide]
    apply and_congr_right
    rintro rfl
    rw [h.level_follow hw ha, h.level_follow hw hb]
  rw [List.filter_append, List.map_append, hold, ← hr.predecessors, h.visit_follow_near hw hnear]
  by_cases hx : x = w
  · subst hx
    rw [List.filter_singleton, h.level_follow_near hw hnear, h.level_follow hw he.mem, he.level]
    simp
  · simp [hx, Ne.symm hx]

theorem paths_follow_near (hr : Recorded source arcs s) (h : Labelled g source s)
    (he : Expanding v d p arcs s) (hw : w < g.size) (hnear : w ∈ s.order → s.level w = d + 1)
    (x : Nat) :
    ((Search.follow v d p s w).visit x).paths = (if x = source then 1 else 0) +
      (((Search.follow v d p s w).visit x).predecessors.map fun u =>
        ((Search.follow v d p s w).visit u).paths).sum := by
  have hsame : ∀ u ∈ ((Search.follow v d p s w).visit x).predecessors,
      ((Search.follow v d p s w).visit u).paths = (s.visit u).paths := by
    intro u hu
    rw [hr.predecessors_follow_near h he hw hnear] at hu
    obtain ⟨⟨_, y⟩, hmem, rfl⟩ := List.mem_map.1 hu
    obtain ⟨_, hne⟩ := he.ne_of_near hr hnear (List.mem_of_mem_filter hmem)
    rw [h.visit_follow_near hw hnear, if_neg hne]
  rw [List.map_congr_left hsame, h.visit_follow_near hw hnear]
  by_cases hx : x = w
  · subst hx
    simp only [if_true, List.map_append, List.sum_append, List.map_cons, List.map_nil,
      List.sum_cons, List.sum_nil, add_zero, he.paths]
    rw [hr.paths x]
    exact add_assoc _ _ _
  · simp only [if_neg hx]
    exact hr.paths x

theorem follow_near (hr : Recorded source arcs s) (h : Labelled g source s)
    (he : Expanding v d p arcs s) (hw : w < g.size) (hnear : w ∈ s.order → s.level w = d + 1) :
    Recorded source (arcs ++ [(v, w)]) (Search.follow v d p s w) where
  arc u x hu := by
    rw [h.mem_order_follow, h.mem_order_follow]
    rcases mem_concat_arc.1 hu with hu | ⟨rfl, rfl⟩
    · obtain ⟨hmem, hmem', hle⟩ := hr.arc u x hu
      rw [h.level_follow hw hmem, h.level_follow hw hmem']
      exact ⟨.inl hmem, .inl hmem', hle⟩
    · rw [h.level_follow_near hw hnear, h.level_follow hw he.mem, he.level]
      exact ⟨.inl he.mem, .inr rfl, le_rfl⟩
  found x hx hne := by
    by_cases hxw : x = w
    · subst hxw
      refine ⟨v, List.mem_append_right _ List.mem_cons_self, ?_⟩
      rw [h.level_follow_near hw hnear, h.level_follow hw he.mem, he.level]
    · have hmem := (h.mem_order_follow.1 hx).resolve_right hxw
      obtain ⟨u, hu, hlevel⟩ := hr.found x hmem hne
      refine ⟨u, List.mem_append_left _ hu, ?_⟩
      rw [h.level_follow hw hmem, h.level_follow hw (hr.arc u x hu).1, hlevel]
  predecessors := hr.predecessors_follow_near h he hw hnear
  paths := hr.paths_follow_near h he hw hnear

theorem follow (hr : Recorded source arcs s) (h : Labelled g source s)
    (he : Expanding v d p arcs s) (hw : w < g.size) :
    Recorded source (arcs ++ [(v, w)]) (Search.follow v d p s w) := by
  rcases far_or_near s d w with hfar | hnear
  · rw [h.follow_far hfar]
    exact hr.follow_far he hfar
  · exact hr.follow_near h he hw hnear

end Recorded

/-! ## All arcs of a node -/

theorem prefix_foldl_follow (v d : Nat) (p : Rat) (ws : List Nat) (s : Search Rat) :
    s.order.toList <+: (ws.foldl (follow v d p) s).order.toList := by
  induction ws generalizing s with
  | nil => exact List.prefix_refl _
  | cons w ws ih =>
    refine List.IsPrefix.trans ?_ (ih _)
    rw [order_follow]
    split
    · rw [Array.toList_push]
      exact List.prefix_append _ _
    · exact List.prefix_refl _

theorem expanded_foldl_follow (v d : Nat) (p : Rat) (ws : List Nat) (s : Search Rat) :
    (ws.foldl (follow v d p) s).expanded = s.expanded := by
  induction ws generalizing s with
  | nil => rfl
  | cons w ws ih => rw [List.foldl_cons, ih, expanded_follow]

theorem Expanding.foldl_follow (he : Expanding v d p arcs s) (h : Labelled g source s)
    (hr : Recorded source arcs s) {ws : List Nat} (hws : ∀ w ∈ ws, w < g.size) :
    Labelled g source (ws.foldl (Search.follow v d p) s) ∧
      Recorded source (arcs ++ ws.map fun w => (v, w)) (ws.foldl (Search.follow v d p) s) := by
  induction ws generalizing arcs s with
  | nil => simpa using ⟨h, hr⟩
  | cons w ws ih =>
    obtain ⟨hw, hws⟩ := List.forall_mem_cons.1 hws
    have hrest := ih (he.follow h hr hw) (h.follow he hw) (hr.follow h he hw) hws
    rwa [List.append_assoc] at hrest

/-- The nodes expanded so far are the first ones of the order, and all their arcs have been
    followed. -/
structure Progress (g : Adjacency) (source : Nat) (s : Search Rat) : Prop where
  labelled : Labelled g source s
  recorded : Recorded source (g.arcsFrom (s.order.toList.take s.expanded)) s
  expanded_le : s.expanded ≤ s.order.size

theorem take_succ_order (hv : s.order[s.expanded]? = some v) :
    s.order.toList.take (s.expanded + 1) = s.order.toList.take s.expanded ++ [v] := by
  rw [List.take_add_one, Array.getElem?_toList, hv]
  rfl

/-- The node to be expanded next is as far away as any that has been expanded, and none is
    more than a step farther away than it. -/
theorem Progress.expanding (h : Progress g source s) (hv : s.order[s.expanded]? = some v) :
    Expanding v (s.level v) (s.visit v).paths (g.arcsFrom (s.order.toList.take s.expanded)) s := by
  have hordered := h.labelled.ordered.sublist (List.take_sublist (s.expanded + 1) _)
  rw [take_succ_order hv, List.pairwise_append] at hordered
  have hpast : ∀ u w, (u, w) ∈ g.arcsFrom (s.order.toList.take s.expanded) →
      s.level u ≤ s.level v := by
    intro u w hu
    exact hordered.2.2 u (mem_arcsFrom.1 hu).1 v List.mem_cons_self
  refine ⟨Array.mem_of_getElem? hv, rfl, rfl, hpast, fun u hu => ?_⟩
  by_cases hsource : u = source
  · rw [hsource, h.labelled.source_level]
    exact Nat.zero_le _
  · obtain ⟨x, hx, hlevel⟩ := h.recorded.found u hu hsource
    rw [hlevel]
    exact Nat.succ_le_succ (hpast x u hx)

theorem expanded_expand (g : Adjacency) (s : Search Rat) (v : Nat) :
    (s.expand g v).expanded = s.expanded + 1 := by
  rw [expand, expanded_foldl_follow]

theorem Progress.expand (hg : g.Closed) (h : Progress g source s)
    (hv : s.order[s.expanded]? = some v) : Progress g source (s.expand g v) := by
  -- The invariants do not mention how many nodes have been expanded.
  let s' : Search Rat := { s with expanded := s.expanded + 1 }
  have hl : Labelled g source s' := { h.labelled with }
  have hr : Recorded source (g.arcsFrom (s.order.toList.take s.expanded)) s' := { h.recorded with }
  have he : Expanding v (s.level v) (s.visit v).paths
      (g.arcsFrom (s.order.toList.take s.expanded)) s' := { h.expanding hv with }
  obtain ⟨hlabelled, hrecorded⟩ := he.foldl_follow hl hr (hg v)
  obtain ⟨more, hmore⟩ := prefix_foldl_follow v (s.level v) (s.visit v).paths (g.successors v) s'
  have hlt : s.expanded < s.order.size := (Array.getElem?_eq_some_iff.1 hv).1
  have horder : (s.expand g v).order.toList = s.order.toList ++ more := hmore.symm
  refine ⟨hlabelled, ?_, ?_⟩
  · rw [expanded_expand, horder, List.take_append_of_le_length (by simpa using hlt),
      take_succ_order hv, arcsFrom_concat]
    exact hrecorded
  · rw [expanded_expand, ← Array.length_toList, horder, List.length_append, Array.length_toList]
    omega

/-! ## The whole search -/

theorem visit_start {n : Nat} (hsource : source < n) (u : Nat) :
    (start n source : Search Rat).visit u =
      if u = source then ⟨some 0, 1, []⟩ else ⟨none, 0, []⟩ := by
  by_cases hu : u = source
  · subst hu
    simp [visit, start, Array.getElem_modify, hsource, Scalar.one_rat]
  · by_cases hn : u < n <;>
      simp [visit, start, Array.getElem_modify, hu, Ne.symm hu, hn, Scalar.zero_rat]

theorem labelled_start (hsource : source < g.size) :
    Labelled g source (start g.size source) where
  size := by simp [start]
  nodup := List.nodup_singleton source
  unknown_iff u := by
    rw [visit_start hsource]
    by_cases hu : u = source <;> simp [start, hu]
  ordered := List.pairwise_singleton _ source
  source_mem := by simp [start]
  source_level := by simp [level, visit_start hsource]

theorem recorded_start {n : Nat} (hsource : source < n) :
    Recorded source [] (start n source) where
  arc u w hu := by cases hu
  found w hw hne := absurd (by simpa [start] using hw) hne
  predecessors w := by
    by_cases hw : w = source <;> simp [visit_start hsource, hw]
  paths w := by
    by_cases hw : w = source <;> simp [visit_start hsource, hw]

theorem progress_start (hsource : source < g.size) :
    Progress g source (start g.size source) :=
  ⟨labelled_start hsource, recorded_start hsource, Nat.zero_le _⟩

/-- As many steps as there are nodes are enough to expand all that are found. -/
theorem Progress.run (hg : g.Closed) {fuel : Nat} (h : Progress g source s)
    (hfuel : g.size ≤ s.expanded + fuel) :
    Progress g source (run g fuel s) ∧ (run g fuel s).expanded = (run g fuel s).order.size := by
  induction fuel generalizing s with
  | zero =>
    have hle := h.expanded_le
    have hsize := h.labelled.size_order_le
    exact ⟨h, by simp only [Search.run]; omega⟩
  | succ fuel ih =>
    rw [Search.run]
    split
    next hnone =>
      have hge := Array.getElem?_eq_none_iff.1 hnone
      exact ⟨h, h.expanded_le.antisymm hge⟩
    next v hv =>
      apply ih (h.expand hg hv)
      rw [expanded_expand]
      omega

/-! ## What a finished search knows -/

/-- All arcs that leave the nodes found have been followed. -/
structure Finished (g : Adjacency) (source : Nat) (s : Search Rat) : Prop where
  labelled : Labelled g source s
  recorded : Recorded source (g.arcsFrom s.order.toList) s

theorem finished_search (hg : g.Closed) (hsource : source < g.size) :
    Finished g source (g.search source) := by
  obtain ⟨hprogress, hexpanded⟩ := (progress_start hsource).run hg (Nat.le_add_left g.size _)
  refine ⟨hprogress.labelled, ?_⟩
  have hrecorded := hprogress.recorded
  rw [hexpanded, ← Array.length_toList, List.take_length] at hrecorded
  exact hrecorded

namespace Finished

theorem arc (h : Finished g source s) (hu : u ∈ s.order) (hw : w ∈ g.successors u) :
    w ∈ s.order ∧ s.level w ≤ s.level u + 1 :=
  (h.recorded.arc u w (mem_arcsFrom.2 ⟨Array.mem_toList_iff.2 hu, hw⟩)).2

/-- A walk ends at a node that was found and that is no farther away than the walk is long. -/
theorem level_le_of_walk (hg : g.Closed) (h : Finished g source s) {k : Nat}
    (hk : 0 < g.walkCount k source w) : w ∈ s.order ∧ s.level w ≤ k := by
  induction k generalizing w with
  | zero =>
    have hw : source = w := by
      by_contra hne
      simp [walkCount_zero, hne] at hk
    exact ⟨hw ▸ h.labelled.source_mem, hw ▸ h.labelled.source_level.le⟩
  | succ k ih =>
    rw [hg.walkCount_succ_last (h.labelled.lt_size h.labelled.source_mem)] at hk
    obtain ⟨u, _, hu⟩ := Finset.exists_ne_zero_of_sum_ne_zero hk.ne'
    obtain ⟨hbefore, hcount⟩ := mul_ne_zero_iff.1 hu
    obtain ⟨hmem, hle⟩ := ih (Nat.pos_of_ne_zero hbefore)
    obtain ⟨hmem', hle'⟩ := h.arc hmem (List.count_pos_iff.1 (Nat.pos_of_ne_zero hcount))
    exact ⟨hmem', hle'.trans (Nat.succ_le_succ hle)⟩

/-- A walk as long as its distance leads to every node that was found. -/
theorem walkCount_level_pos (h : Finished g source s) (hw : w ∈ s.order) :
    0 < g.walkCount (s.level w) source w := by
  induction hn : s.level w using Nat.strong_induction_on generalizing w with
  | _ n ih =>
    by_cases hsource : w = source
    · rw [← hn, hsource, h.labelled.source_level, walkCount_zero, if_pos rfl]
      exact Nat.one_pos
    · obtain ⟨u, hu, hlevel⟩ := h.recorded.found w hw hsource
      obtain ⟨hmem, harc⟩ := mem_arcsFrom.1 hu
      have hbefore := ih (s.level u) (by omega) (Array.mem_toList_iff.1 hmem) rfl
      have hlast : 0 < g.walkCount 1 u w :=
        walkCount_succ_pos_iff.2 ⟨w, harc, by simp [walkCount_zero]⟩
      rw [← hn, hlevel]
      exact walkCount_add_pos hbefore hlast

theorem mem_order (hg : g.Closed) (h : Finished g source s) :
    w ∈ s.order ↔ g.Reaches source w := by
  rw [reaches_iff]
  constructor
  · intro hw
    exact ⟨_, h.walkCount_level_pos hw⟩
  · rintro ⟨k, hk⟩
    exact (h.level_le_of_walk hg hk).1

theorem level_eq (hg : g.Closed) (h : Finished g source s) (hw : w ∈ s.order) :
    s.level w = g.distance source w := by
  apply le_antisymm
  · exact (h.level_le_of_walk hg ((h.mem_order hg).1 hw).walkCount_pos).2
  · exact distance_le (h.walkCount_level_pos hw)

/-- A node is listed as predecessor once for each arc from it, if it is one step nearer. -/
theorem count_predecessors (h : Finished g source s) (u w : Nat) :
    (s.visit w).predecessors.count u =
      if u ∈ s.order ∧ s.level w = s.level u + 1 then (g.successors u).count w else 0 := by
  rw [h.recorded.predecessors, count_map_fst_filter (c := fun x => s.level w = s.level x + 1),
    count_arcsFrom h.labelled.nodup, ← ite_and]
  simp only [Array.mem_toList_iff, and_comm]

theorem mem_of_mem_predecessors (h : Finished g source s) (hu : u ∈ (s.visit w).predecessors) :
    u ∈ s.order := by
  by_contra hnot
  have hcount := List.count_pos_iff.2 hu
  simp [h.count_predecessors, hnot] at hcount

/-- The number of paths that the search finds is that of all walks as long as the distance. -/
theorem paths_eq (hg : g.Closed) (h : Finished g source s) (hw : w ∈ s.order) :
    (s.visit w).paths = g.walkCount (s.level w) source w := by
  induction hn : s.level w using Nat.strong_induction_on generalizing w with
  | _ n ih =>
    have hlt : ∀ u ∈ (s.visit w).predecessors, u < g.size := fun u hu =>
      h.labelled.lt_size (h.mem_of_mem_predecessors hu)
    rw [h.recorded.paths, sum_map_eq_sum_count hlt]
    by_cases hsource : w = source
    · subst hsource
      have hnone : ∀ u, (s.visit w).predecessors.count u = 0 := by
        intro u
        rw [h.count_predecessors, h.labelled.source_level]
        simp
      simp [hnone, ← hn, h.labelled.source_level, walkCount_zero]
    · obtain ⟨k, rfl⟩ : ∃ k, n = k + 1 := by
        obtain ⟨u, _, hlevel⟩ := h.recorded.found w hw hsource
        exact ⟨s.level u, by omega⟩
      rw [if_neg hsource, zero_add,
        hg.walkCount_succ_last (h.labelled.lt_size h.labelled.source_mem), Nat.cast_sum]
      apply Finset.sum_congr rfl
      intro u _
      rw [h.count_predecessors, hn, Nat.cast_mul]
      by_cases hu : u ∈ s.order ∧ k + 1 = s.level u + 1
      · rw [if_pos hu, ih (s.level u) (by omega) hu.1 rfl, mul_comm, Nat.succ_inj.1 hu.2]
      · -- A walk whose last arc leads to this node passes a node one step nearer before.
        have hzero : g.walkCount k source u * (g.successors u).count w = 0 := by
          by_contra hne
          obtain ⟨hbefore, hcount⟩ := mul_ne_zero_iff.1 hne
          obtain ⟨hmem, hle⟩ := h.level_le_of_walk hg (Nat.pos_of_ne_zero hbefore)
          obtain ⟨_, hle'⟩ := h.arc hmem (List.count_pos_iff.1 (Nat.pos_of_ne_zero hcount))
          exact hu ⟨hmem, by omega⟩
        rw [if_neg hu, Nat.cast_zero, zero_mul, ← Nat.cast_mul, hzero, Nat.cast_zero]

end Finished

end Search

end ArchAudit.Adjacency
