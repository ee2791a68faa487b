-- SUMMARY: The loop of a search ends by itself, and then the search knows all shortest paths.
import ArchAudit.Proofs.BreadthFirst
import Mathlib.Computability.StateTransition

/-!
# Shortest paths

The loop of a search expands one node after the other for as long as there is one. The numbers
of paths decide nothing in it: searches that count in different numbers take the same turns.
So the loop ends in whatever numbers it counts, with the same distances, predecessors and
order, and counting in exact numbers tells how many shortest paths there are.
-/

namespace ArchAudit.Adjacency

variable {α β : Type} [Scalar α] [Scalar β] {g : Adjacency}

/-! ## The loop -/

namespace Search

/-- One turn of the loop: the first node that has not been expanded is expanded. There is no
    turn if all have been. -/
def next? (g : Adjacency) (s : Search α) : Option (Search α) :=
  s.order[s.expanded]?.map (s.expand g)

theorem next?_eq_none_iff {s : Search α} : s.next? g = none ↔ s.order.size ≤ s.expanded := by
  rw [next?, Option.map_eq_none_iff, Array.getElem?_eq_none_iff]

/-- A run with fuel takes turns of the loop, and no others. -/
theorem reaches_run (g : Adjacency) (fuel : Nat) (s : Search α) :
    StateTransition.Reaches (next? g) s (run g fuel s) := by
  induction fuel generalizing s with
  | zero => exact .refl
  | succ fuel ih =>
    rw [run]
    cases hv : s.order[s.expanded]? with
    | none => exact .refl
    | some v =>
      have hturn : s.expand g v ∈ s.next? g := by
        rw [next?, hv, Option.map_some, Option.mem_some]
      exact .head hturn (ih _)

end Search

/-! ## Searches that count in different numbers -/

/-- The same is known of a node, apart from the number of paths. -/
structure Visit.Alike (x : Visit α) (y : Visit β) : Prop where
  distance : x.distance = y.distance
  predecessors : x.predecessors = y.predecessors

namespace Search

/-- Two searches that differ in nothing but the numbers of paths. -/
structure Alike (s : Search α) (t : Search β) : Prop where
  size : s.visits.size = t.visits.size
  visit : ∀ v, (s.visit v).Alike (t.visit v)
  order : s.order = t.order
  expanded : s.expanded = t.expanded

theorem visit_update_of_le {s : Search α} {v : Nat} (hv : s.visits.size ≤ v)
    (f : Visit α → Visit α) (u : Nat) : (s.update v f).visit u = s.visit u := by
  have hnone : s.visits[v]? = none := Array.getElem?_eq_none hv
  by_cases hvu : v = u
  · subst hvu
    simp [Search.visit, update, Array.getElem?_modify, hnone]
  · simp [Search.visit, update, Array.getElem?_modify, hvu]

theorem alike_start (n source : Nat) :
    Alike (start n source : Search α) (start n source : Search β) where
  size := by simp [start]
  visit u := by
    by_cases hn : u < n <;> by_cases hu : source = u <;>
      constructor <;> simp [Search.visit, start, Array.getElem_modify, hn, hu]
  order := rfl
  expanded := rfl

namespace Alike

variable {s : Search α} {t : Search β} {d v w : Nat}

theorem update (h : Alike s t) {f : Visit α → Visit α} {f' : Visit β → Visit β}
    (hf : ∀ x y, x.Alike y → (f x).Alike (f' y)) : Alike (s.update v f) (t.update v f') where
  size := by rw [size_update, size_update, h.size]
  visit u := by
    by_cases hv : v < s.visits.size
    · rw [visit_update hv, visit_update (h.size ▸ hv)]
      by_cases hu : u = v
      · rw [if_pos hu, if_pos hu]
        exact hf _ _ (h.visit v)
      · rw [if_neg hu, if_neg hu]
        exact h.visit u
    · have hv := Nat.le_of_not_lt hv
      rw [visit_update_of_le hv, visit_update_of_le (h.size ▸ hv)]
      exact h.visit u
  order := h.order
  expanded := h.expanded

theorem discover (h : Alike s t) : Alike (s.discover w d) (t.discover w d) := by
  unfold Search.discover
  rw [(h.visit w).distance]
  split
  · have hupdate : Alike (s.update w fun x => { x with distance := some d })
        (t.update w fun x => { x with distance := some d }) :=
      h.update fun x y hxy => ⟨rfl, hxy.predecessors⟩
    exact { hupdate with order := congrArg (Array.push · w) h.order }
  · exact h

theorem follow (h : Alike s t) (p : α) (q : β) :
    Alike (Search.follow v d p s w) (Search.follow v d q t w) := by
  have hdiscover : Alike (s.discover w (d + 1)) (t.discover w (d + 1)) := h.discover
  unfold Search.follow
  simp only [(hdiscover.visit w).distance]
  split
  · exact hdiscover.update fun x y hxy => ⟨hxy.distance, congrArg (· ++ [v]) hxy.predecessors⟩
  · exact hdiscover

theorem foldl_follow (h : Alike s t) (p : α) (q : β) (ws : List Nat) :
    Alike (ws.foldl (Search.follow v d p) s) (ws.foldl (Search.follow v d q) t) := by
  induction ws generalizing s t with
  | nil => exact h
  | cons w ws ih => exact ih (h.follow p q)

theorem expand (h : Alike s t) (v : Nat) : Alike (s.expand g v) (t.expand g v) := by
  have hcount : Alike { s with expanded := s.expanded + 1 } { t with expanded := t.expanded + 1 } :=
    { h with expanded := congrArg (· + 1) h.expanded }
  unfold Search.expand
  simp only [(h.visit v).distance]
  exact hcount.foldl_follow _ _ _

theorem run (h : Alike s t) (fuel : Nat) : Alike (run g fuel s) (run g fuel t) := by
  induction fuel generalizing s t with
  | zero => exact h
  | succ fuel ih =>
    rw [Search.run, Search.run, h.order, h.expanded]
    cases t.order[t.expanded]? with
    | none => exact h
    | some v => exact ih (h.expand v)

end Alike

theorem alike_search (g : Adjacency) (source : Nat) :
    Alike (g.search source : Search α) (g.search source : Search β) :=
  (alike_start g.size source).run g.size

/-! ## The end of the loop -/

/-- The loop comes to an end, and fuel for as many turns as there are nodes takes it there. -/
theorem eval_next?_start {source : Nat} (hg : g.Closed) (hsource : source < g.size) :
    StateTransition.eval (next? g) (start g.size source) =
      Part.some (g.search source : Search α) := by
  have hexact : (g.search source : Search Rat).expanded =
      (g.search source : Search Rat).order.size :=
    ((progress_start hsource).run hg (Nat.le_add_left g.size _)).2
  have halike : Alike (g.search source : Search α) (g.search source : Search Rat) :=
    alike_search g source
  apply Part.eq_some_iff.2
  refine StateTransition.mem_eval.2 ⟨reaches_run g g.size _, next?_eq_none_iff.2 ?_⟩
  rw [halike.order, halike.expanded, hexact]

/-! ## What is known at the end -/

/-- The search knows how far away each node is and through which nodes the shortest walks come.
    A node that was not found has no distance, so it precedes none, not even the source. -/
structure KnowsPaths (g : Adjacency) (source : Nat) (s : Search α) : Prop where
  distance_eq_some_iff : ∀ w k, (s.visit w).distance = some k ↔
    IsLeast {k | ∃ p ∈ g.walks k source, p.getLast? = some w} k
  distance_eq_none_iff : ∀ w, (s.visit w).distance = none ↔ ¬ g.Reaches source w
  /-- Each node one step nearer is listed once for each arc from it. -/
  count_predecessors : ∀ v w, (s.visit w).predecessors.count v =
    if (s.visit v).distance.isSome ∧ (s.visit w).distance = (s.visit v).distance.map (· + 1) then
      (g.successors v).count w
    else 0
  mem_order_iff : ∀ w, w ∈ s.order ↔ g.Reaches source w
  nodup_order : s.order.toList.Nodup
  ordered : s.order.toList.Pairwise fun u w => g.distance source u ≤ g.distance source w

theorem Alike.knowsPaths {source : Nat} {s : Search α} {t : Search β} (h : Alike s t)
    (ht : KnowsPaths g source t) : KnowsPaths g source s where
  distance_eq_some_iff w k := by
    rw [(h.visit w).distance, ht.distance_eq_some_iff]
  distance_eq_none_iff w := by
    rw [(h.visit w).distance, ht.distance_eq_none_iff]
  count_predecessors v w := by
    rw [(h.visit w).predecessors, (h.visit w).distance, (h.visit v).distance,
      ht.count_predecessors]
  mem_order_iff w := by
    rw [h.order, ht.mem_order_iff]
  nodup_order := h.order ▸ ht.nodup_order
  ordered := h.order ▸ ht.ordered

namespace Finished

variable {source : Nat} {s : Search Rat}

theorem distance_eq_some_iff (hg : g.Closed) (h : Finished g source s) (w k : Nat) :
    (s.visit w).distance = some k ↔
      IsLeast {k | ∃ p ∈ g.walks k source, p.getLast? = some w} k := by
  constructor
  · intro hk
    have hw : w ∈ s.order := by
      by_contra hnot
      rw [(h.labelled.unknown_iff w).2 hnot] at hk
      cases hk
    rw [h.labelled.distance_eq hw, Option.some_inj, h.level_eq hg hw] at hk
    exact hk ▸ ((h.mem_order hg).1 hw).isLeast_distance
  · intro hk
    have hreaches : g.Reaches source w := reaches_iff.2 ⟨k, walkCount_pos_iff.2 hk.1⟩
    have hw : w ∈ s.order := (h.mem_order hg).2 hreaches
    rw [h.labelled.distance_eq hw, h.level_eq hg hw, hreaches.isLeast_distance.unique hk]

/-- The nodes one step nearer, by distances instead of levels. -/
theorem isSome_and_eq_map_iff (h : Finished g source s) {v w : Nat} :
    ((s.visit v).distance.isSome ∧ (s.visit w).distance = (s.visit v).distance.map (· + 1)) ↔
      v ∈ s.order ∧ s.level w = s.level v + 1 := by
  by_cases hv : v ∈ s.order
  · have hdistance := h.labelled.distance_eq hv
    rw [hdistance, Option.isSome_some, Option.map_some, and_iff_right rfl, and_iff_right hv]
    by_cases hw : w ∈ s.order
    · rw [h.labelled.distance_eq hw, Option.some_inj]
    · have hnone := (h.labelled.unknown_iff w).2 hw
      simp [level, hnone]
  · simp [(h.labelled.unknown_iff v).2 hv, hv]

theorem knowsPaths (hg : g.Closed) (h : Finished g source s) : KnowsPaths g source s where
  distance_eq_some_iff := h.distance_eq_some_iff hg
  distance_eq_none_iff w := by
    rw [h.labelled.unknown_iff, h.mem_order hg]
  count_predecessors v w := by
    simp only [h.count_predecessors, h.isSome_and_eq_map_iff]
  mem_order_iff w := h.mem_order hg
  nodup_order := h.labelled.nodup
  ordered := by
    apply h.labelled.ordered.imp_of_mem
    intro u w hu hw hle
    rwa [← h.level_eq hg (Array.mem_toList_iff.1 hu), ← h.level_eq hg (Array.mem_toList_iff.1 hw)]

/-- No paths are counted for a node that was not found. -/
theorem paths_eq_zero (h : Finished g source s) {w : Nat} (hw : w ∉ s.order) :
    (s.visit w).paths = 0 := by
  have hlevel : s.level w = 0 := by
    rw [level, (h.labelled.unknown_iff w).2 hw, Option.getD_none]
  have hnone : (s.visit w).predecessors = [] := by
    apply List.eq_nil_iff_forall_not_mem.2
    intro u hu
    have hcount := List.count_pos_iff.2 hu
    rw [h.count_predecessors, hlevel, if_neg (by omega)] at hcount
    exact Nat.lt_irrefl 0 hcount
  have hsource : w ≠ source := fun heq => hw (heq ▸ h.labelled.source_mem)
  rw [h.recorded.paths, hnone, if_neg hsource, List.map_nil, List.sum_nil, add_zero]

theorem paths_eq_length (hg : g.Closed) (h : Finished g source s) (w : Nat) :
    (s.visit w).paths = (g.shortestPaths source w).length := by
  rw [length_shortestPaths]
  by_cases hw : w ∈ s.order
  · rw [h.paths_eq hg hw, h.level_eq hg hw]
  · have hzero : g.walkCount (g.distance source w) source w = 0 := by
      by_contra hpos
      exact hw ((h.mem_order hg).2 (reaches_iff.2 ⟨_, Nat.pos_of_ne_zero hpos⟩))
    rw [h.paths_eq_zero hw, hzero, Nat.cast_zero]

theorem one_le_paths (hg : g.Closed) (h : Finished g source s) {w : Nat} (hw : w ∈ s.order) :
    1 ≤ (s.visit w).paths := by
  rw [h.paths_eq_length hg, length_shortestPaths]
  exact Nat.one_le_cast.2 ((h.mem_order hg).1 hw).walkCount_pos

end Finished

end Search

/-- The loop ends in whatever numbers paths are counted, and the search knows distances,
    predecessors and the order of the nodes then. In exact numbers it has counted the shortest
    paths to each node, which are at least one for the nodes whose paths it divides by later. -/
theorem search_finds_shortest_paths {source : Nat} (hg : g.Closed) (hsource : source < g.size) :
    StateTransition.eval (Search.next? g) (Search.start g.size source) =
      Part.some (g.search source : Search α) ∧
    Search.KnowsPaths g source (g.search source : Search α) ∧
    (∀ w, ((g.search source : Search Rat).visit w).paths = (g.shortestPaths source w).length) ∧
    ∀ w ∈ (g.search source : Search Rat).order,
      1 ≤ ((g.search source : Search Rat).visit w).paths := by
  have hfinished : Search.Finished g source (g.search source) := Search.finished_search hg hsource
  have halike : Search.Alike (g.search source : Search α) (g.search source : Search Rat) :=
    Search.alike_search g source
  exact ⟨Search.eval_next?_start hg hsource, halike.knowsPaths (hfinished.knowsPaths hg),
    hfinished.paths_eq_length hg, fun w hw => hfinished.one_le_paths hg hw⟩

/-- Two arcs in parallel, a loop, and an arc to the source from a node that is not found. -/
theorem search_finds_shortest_paths_strayArc :
    let g : Adjacency := #[[1, 1, 2], [3], [3, 2], [], [0]]
    let s : Search Rat := g.search 0
    g.Closed ∧ 0 < g.size ∧ s.order.toList = [0, 1, 2, 3] ∧ (s.visit 0).predecessors = [] ∧
      IsLeast {k | ∃ p ∈ g.walks k 0, p.getLast? = some 3} 2 ∧
      (g.shortestPaths 0 3).length = 3 ∧ ¬ g.Reaches 0 4 := by
  intro g s
  have hg : g.Closed := by decide
  have hsource : 0 < g.size := by decide
  obtain ⟨_, hknows, hpaths, _⟩ := search_finds_shortest_paths (α := Rat) hg hsource
  have hvalues : s.order.toList = [0, 1, 2, 3] ∧ (s.visit 0).predecessors = [] ∧
      (s.visit 3).distance = some 2 ∧ (s.visit 3).paths = (3 : Nat) ∧
      (s.visit 4).distance = none := by
    decide +kernel
  obtain ⟨horder, hpredecessors, hdistance, hthree, hnone⟩ := hvalues
  refine ⟨hg, hsource, horder, hpredecessors, ?_, ?_, ?_⟩
  · exact (hknows.distance_eq_some_iff 3 2).1 hdistance
  · exact Nat.cast_injective ((hpaths 3).symm.trans hthree)
  · exact (hknows.distance_eq_none_iff 4).1 hnone

end ArchAudit.Adjacency
