-- SUMMARY: Betweenness sums up a node's shares in the shortest paths between other nodes.
import ArchAudit.Proofs.BreadthFirst
import ArchAudit.Proofs.Build
import ArchAudit.Proofs.ExactScalars
import Mathlib.Algebra.BigOperators.Field
import Mathlib.Algebra.Order.BigOperators.Group.Finset

/-!
# Betweenness

The dependency of a source on a node is the sum of the node's shares in the shortest paths
from the source to all other nodes. A shortest path that goes on from a node does so through
one of the nodes one step farther away, so the dependency on a node is obtained from those on
the nodes that follow it. Going through the nodes from the farthest to the nearest, each
dependency is complete when it is read.
-/

namespace ArchAudit.Adjacency

open Finset (range)

variable {g : Adjacency} {s t u v w : Nat}

/-! ## Shares of shortest paths -/

noncomputable instance (g : Adjacency) : DecidableRel g.Reaches :=
  Classical.decRel _

/-- The number of shortest paths from one node to the other. -/
noncomputable def pathCount (g : Adjacency) (s t : Nat) : Nat :=
  (g.shortestPaths s t).length

/-- The share of the shortest paths from `s` to `t` that visit a node. -/
noncomputable def share (g : Adjacency) (s t v : Nat) : Rat :=
  (g.shortestPaths s t).countP (v ∈ ·) / g.pathCount s t

theorem pathCount_eq (g : Adjacency) (s t : Nat) :
    g.pathCount s t = g.walkCount (g.distance s t) s t :=
  length_shortestPaths g s t

theorem Reaches.pathCount_pos (h : g.Reaches s t) : 0 < g.pathCount s t := by
  rw [pathCount_eq]
  exact h.walkCount_pos

theorem share_nonneg (g : Adjacency) (s t v : Nat) : 0 ≤ g.share s t v := by
  unfold share
  positivity

theorem share_le_one (g : Adjacency) (s t v : Nat) : g.share s t v ≤ 1 := by
  apply div_le_one_of_le₀ _ (Nat.cast_nonneg _)
  exact Nat.cast_le.2 List.countP_le_length

theorem share_of_le (hle : g.distance s v ≤ g.distance s t) :
    g.share s t v = g.pathCount s v *
      g.walkCount (g.distance s t - g.distance s v) v t / g.pathCount s t := by
  rw [share, countP_shortestPaths hle, pathCount_eq g s v, Nat.cast_mul]

theorem share_of_lt (hlt : g.distance s t < g.distance s v) : g.share s t v = 0 := by
  rw [share, countP_shortestPaths_of_lt hlt, Nat.cast_zero, zero_div]

theorem share_self (h : g.Reaches s v) : g.share s v v = 1 := by
  rw [share_of_le le_rfl, Nat.sub_self, walkCount_zero, if_pos rfl, Nat.cast_one, mul_one,
    div_self (Nat.cast_ne_zero.2 h.pathCount_pos.ne')]

theorem share_of_eq (heq : g.distance s v = g.distance s t) (hne : t ≠ v) : g.share s t v = 0 := by
  rw [share_of_le heq.le, heq, Nat.sub_self, walkCount_zero, if_neg hne.symm, Nat.cast_zero,
    mul_zero, zero_div]

theorem share_of_not_reaches (h : ¬ g.Reaches s v) : g.share s t v = 0 := by
  have hzero : (g.shortestPaths s t).countP (v ∈ ·) = 0 := by
    rw [List.countP_eq_zero]
    intro p hp hmem
    obtain ⟨j, hj⟩ := List.mem_iff_getElem?.1 (of_decide_eq_true hmem)
    exact h (eq_distance_of_visit hp hj).1
  rw [share, hzero, Nat.cast_zero, zero_div]

/-- No shortest path leads from a node through another one back to it. -/
theorem share_source (hne : s ≠ v) : g.share s s v = 0 := by
  have hzero : g.distance s s = 0 := by
    rw [← Nat.le_zero]
    exact distance_le (by simp [walkCount_zero])
  rcases Nat.eq_zero_or_pos (g.distance s v) with heq | hpos
  · exact share_of_eq (heq.trans hzero.symm) hne
  · exact share_of_lt (hzero ▸ hpos)

/-- The nodes one step farther away than a node. -/
noncomputable def nextNodes (g : Adjacency) (s v : Nat) : Finset Nat :=
  {w ∈ range g.size | g.Reaches s w ∧ g.distance s w = g.distance s v + 1}

theorem mem_nextNodes :
    w ∈ g.nextNodes s v ↔
      w < g.size ∧ g.Reaches s w ∧ g.distance s w = g.distance s v + 1 := by
  simp [nextNodes]

/-- A walk that makes up the distance between two nodes goes on through a next node. -/
theorem mem_nextNodes_of_walk {k : Nat} (hg : g.Closed) (hv : g.Reaches s v)
    (hk : g.distance s t = g.distance s v + (k + 1)) (hw : w ∈ g.successors v)
    (hwalk : 0 < g.walkCount k w t) : w ∈ g.nextNodes s v := by
  have hreaches : g.Reaches s w := hv.tail hw
  have hone : 0 < g.walkCount 1 v w :=
    walkCount_succ_pos_iff.2 ⟨w, hw, by simp [walkCount_zero]⟩
  have hle := hv.distance_le_add hone
  have hge := hreaches.distance_le_add hwalk
  exact mem_nextNodes.2 ⟨hg v w hw, hreaches, by omega⟩

/-- Shortest paths that go on from a node are divided among the nodes that come next. -/
theorem Closed.share_eq_sum (hg : g.Closed) (hv : g.Reaches s v) (hne : t ≠ v) :
    g.share s t v = ∑ w ∈ g.nextNodes s v,
      (g.successors v).count w * (g.pathCount s v / g.pathCount s w * g.share s t w) := by
  rcases lt_or_ge (g.distance s v) (g.distance s t) with hlt | hge
  · obtain ⟨k, hk⟩ := Nat.exists_eq_add_of_lt hlt
    rw [Nat.add_assoc] at hk
    have hwalks : g.share s t v = ∑ w ∈ range g.size, (g.pathCount s v : Rat) *
        ((g.successors v).count w * g.walkCount k w t) / g.pathCount s t := by
      rw [share_of_le hlt.le, hk, Nat.add_sub_cancel_left, hg.walkCount_succ]
      push_cast
      rw [Finset.mul_sum, Finset.sum_div]
    have hsub : g.nextNodes s v ⊆ range g.size := Finset.filter_subset _ _
    rw [hwalks, ← Finset.sum_subset hsub]
    · apply Finset.sum_congr rfl
      intro w hw
      obtain ⟨_, hreaches, hnext⟩ := mem_nextNodes.1 hw
      have hpos : (g.pathCount s w : Rat) ≠ 0 := Nat.cast_ne_zero.2 hreaches.pathCount_pos.ne'
      have hrest : g.distance s t - g.distance s w = k := by omega
      rw [share_of_le (by omega), hrest]
      field_simp
    · intro w _ hnot
      have hzero : (g.successors v).count w * g.walkCount k w t = 0 := by
        by_contra hwalk
        obtain ⟨hcount, hwalk⟩ := mul_ne_zero_iff.1 hwalk
        exact hnot (mem_nextNodes_of_walk hg hv hk
          (List.count_pos_iff.1 (Nat.pos_of_ne_zero hcount)) (Nat.pos_of_ne_zero hwalk))
      rw [← Nat.cast_mul, hzero, Nat.cast_zero, mul_zero, zero_div]
  · have hzero : g.share s t v = 0 := by
      rcases hge.lt_or_eq with hlt | heq
      · exact share_of_lt hlt
      · exact share_of_eq heq.symm hne
    rw [hzero, Finset.sum_eq_zero]
    intro w hw
    rw [share_of_lt (by have := (mem_nextNodes.1 hw).2.2; omega), mul_zero, mul_zero]

/-! ## Dependencies -/

/-- The dependency of a source on a node: its shares in the shortest paths to all others. -/
noncomputable def dependencyOn (g : Adjacency) (s v : Nat) : Rat :=
  ∑ t ∈ range g.size with t ≠ v ∧ g.Reaches s t, g.share s t v

theorem dependencyOn_of_not_reaches (h : ¬ g.Reaches s v) : g.dependencyOn s v = 0 :=
  Finset.sum_eq_zero fun _ _ => share_of_not_reaches h

/-- Together with the paths that end at a node, its shares add up to one more. -/
theorem one_add_dependencyOn (hv : v < g.size) (h : g.Reaches s v) :
    1 + g.dependencyOn s v = ∑ t ∈ range g.size with g.Reaches s t, g.share s t v := by
  have hmem : v ∈ {t ∈ range g.size | g.Reaches s t} := by simp [hv, h]
  rw [← Finset.add_sum_erase _ _ hmem, share_self h, dependencyOn]
  congr 2
  ext t
  simp [and_left_comm]

/-- The dependency on a node comes from the nodes one step farther away. -/
theorem Closed.dependencyOn_eq_sum (hg : g.Closed) (hv : g.Reaches s v) :
    g.dependencyOn s v = ∑ w ∈ g.nextNodes s v, (g.successors v).count w *
      (g.pathCount s v / g.pathCount s w * (1 + g.dependencyOn s w)) := by
  calc g.dependencyOn s v
      = ∑ t ∈ range g.size with t ≠ v ∧ g.Reaches s t, ∑ w ∈ g.nextNodes s v,
          (g.successors v).count w * (g.pathCount s v / g.pathCount s w * g.share s t w) := by
        apply Finset.sum_congr rfl
        intro t ht
        exact hg.share_eq_sum hv (Finset.mem_filter.1 ht).2.1
    _ = ∑ w ∈ g.nextNodes s v, (g.successors v).count w * (g.pathCount s v / g.pathCount s w *
          ∑ t ∈ range g.size with t ≠ v ∧ g.Reaches s t, g.share s t w) := by
        rw [Finset.sum_comm]
        simp only [Finset.mul_sum]
    _ = ∑ w ∈ g.nextNodes s v, (g.successors v).count w *
          (g.pathCount s v / g.pathCount s w * (1 + g.dependencyOn s w)) := by
        apply Finset.sum_congr rfl
        intro w hw
        obtain ⟨hlt, hreaches, hnext⟩ := mem_nextNodes.1 hw
        rw [one_add_dependencyOn hlt hreaches]
        congr 2
        -- The nodes that come next have no share in the paths to the node itself.
        apply Finset.sum_subset
        · intro t ht
          simp only [Finset.mem_filter] at ht ⊢
          exact ⟨ht.1, ht.2.2⟩
        · intro t ht hnot
          obtain rfl : t = v := by
            by_contra hne
            simp only [Finset.mem_filter] at ht hnot
            exact hnot ⟨ht.1, hne, ht.2⟩
          exact share_of_lt (by omega)

/-! ## Accumulation -/

theorem getElem?_toList_eq_dependency {delta : Array Rat} (hv : v < delta.size) :
    delta.toList[v]? = some (dependency delta v) := by
  rw [Array.getElem?_toList, dependency, Array.getElem?_eq_getElem hv]

theorem dependency_modify {delta : Array Rat} (hv : v < delta.size) (u : Nat) (f : Rat → Rat) :
    dependency (delta.modify u f) v =
      if u = v then f (dependency delta v) else dependency delta v := by
  simp only [dependency, Array.getElem?_modify, Array.getElem?_eq_getElem hv]
  split_ifs <;> rfl

theorem dependency_replicate (n v : Nat) : dependency (Array.replicate n (0.0 : Rat)) v = 0 := by
  by_cases hv : v < n <;> simp [dependency, hv, Scalar.zero_rat]

theorem size_foldl_modify (c : Nat → Rat) (nodes : List Nat) (delta : Array Rat) :
    (nodes.foldl (fun delta u => delta.modify u (· + c u)) delta).size = delta.size := by
  induction nodes generalizing delta with
  | nil => rfl
  | cons u nodes ih => rw [List.foldl_cons, ih, Array.size_modify]

theorem dependency_foldl_modify (c : Nat → Rat) (nodes : List Nat) {delta : Array Rat}
    (hv : v < delta.size) :
    dependency (nodes.foldl (fun delta u => delta.modify u (· + c u)) delta) v =
      dependency delta v + nodes.count v * c v := by
  induction nodes generalizing delta with
  | nil => simp
  | cons u nodes ih =>
    rw [List.foldl_cons, ih (by rwa [Array.size_modify]), dependency_modify hv, List.count_cons]
    by_cases huv : u = v
    · rw [if_pos huv, if_pos (beq_iff_eq.2 huv), huv]
      push_cast
      ring
    · simp [huv]

/-- What a node passes on to another one, once its own dependency is complete. -/
noncomputable def passedOn (g : Adjacency) (source : Nat) (search : Search Rat) (w v : Nat) :
    Rat :=
  (search.visit w).predecessors.count v *
    ((search.visit v).paths / (search.visit w).paths * (1 + g.dependencyOn source w))

variable {source : Nat} {search : Search Rat} {delta totals : Array Rat}

theorem size_propagate (search : Search Rat) (delta : Array Rat) (w : Nat) :
    (propagate search delta w).size = delta.size :=
  size_foldl_modify _ _ _

theorem dependency_propagate (hv : v < delta.size)
    (hw : dependency delta w = g.dependencyOn source w) :
    dependency (propagate search delta w) v =
      dependency delta v + g.passedOn source search w v := by
  rw [propagate, dependency_foldl_modify _ _ hv, hw, Scalar.one_rat, passedOn]

theorem Search.Finished.paths_eq_pathCount (hg : g.Closed) (h : Finished g source search)
    (hw : w ∈ search.order) : (search.visit w).paths = g.pathCount source w := by
  rw [h.paths_eq hg hw, h.level_eq hg hw, pathCount_eq]

/-- The nodes one step farther away pass on all of the dependency on a node. -/
theorem Search.Finished.sum_passedOn (hg : g.Closed) (h : Finished g source search)
    (hv : v ∈ search.order) {done : List Nat} (hdone : ∀ w ∈ done, w ∈ search.order)
    (hnext : ∀ w ∈ search.order, search.level w = search.level v + 1 → w ∈ done) :
    ∑ w ∈ done.toFinset, g.passedOn source search w v = g.dependencyOn source v := by
  have hmem : ∀ w ∈ g.nextNodes source v,
      w ∈ search.order ∧ search.level w = search.level v + 1 := by
    intro w hw
    obtain ⟨_, hreaches, hdistance⟩ := mem_nextNodes.1 hw
    have hw := (h.mem_order hg).2 hreaches
    exact ⟨hw, by rw [h.level_eq hg hw, h.level_eq hg hv, hdistance]⟩
  have hsub : g.nextNodes source v ⊆ done.toFinset := by
    intro w hw
    exact List.mem_toFinset.2 (hnext w (hmem w hw).1 (hmem w hw).2)
  rw [hg.dependencyOn_eq_sum ((h.mem_order hg).1 hv), ← Finset.sum_subset hsub]
  · apply Finset.sum_congr rfl
    intro w hw
    obtain ⟨hworder, hlevel⟩ := hmem w hw
    rw [passedOn, h.count_predecessors, if_pos ⟨hv, hlevel⟩, h.paths_eq_pathCount hg hv,
      h.paths_eq_pathCount hg hworder]
  · intro w hw hnot
    have hworder := hdone w (List.mem_toFinset.1 hw)
    have hlevel : search.level w ≠ search.level v + 1 := by
      intro hlevel
      rw [h.level_eq hg hworder, h.level_eq hg hv] at hlevel
      exact hnot (mem_nextNodes.2
        ⟨h.labelled.lt_size hworder, (h.mem_order hg).1 hworder, hlevel⟩)
    rw [passedOn, h.count_predecessors, if_neg fun hand => hlevel hand.2, Nat.cast_zero, zero_mul]

/-- What accumulation does at a node, to the dependencies and to the totals. -/
def settle (search : Search Rat) (source w : Nat) (state : Array Rat × Array Rat) :
    Array Rat × Array Rat :=
  let delta := propagate search state.1 w
  (delta, if w = source then state.2 else state.2.modify w (· + dependency delta w))

theorem accumulate_eq_foldr (search : Search Rat) (source : Nat) (totals : Array Rat) :
    accumulate search source totals =
      (search.order.toList.foldr (settle search source)
        (Array.replicate totals.size 0.0, totals)).2 := by
  rw [accumulate, List.foldl_reverse]
  rfl

/-- The nodes that were found last have passed on their dependencies. -/
structure Settled (g : Adjacency) (source : Nat) (search : Search Rat) (totals : Array Rat)
    (done : List Nat) (state : Array Rat × Array Rat) : Prop where
  size : state.1.size = g.size
  size_totals : state.2.size = g.size
  dependency_eq : ∀ v < g.size,
    dependency state.1 v = ∑ w ∈ done.toFinset, g.passedOn source search w v
  total_eq : ∀ v < g.size, dependency state.2 v =
    dependency totals v + if v ∈ done ∧ v ≠ source then g.dependencyOn source v else 0

theorem Search.Labelled.not_mem_of_suffix {done : List Nat} (h : Labelled g source search)
    (hsuffix : w :: done <:+ search.order.toList) : w ∉ done :=
  (List.nodup_cons.1 (h.nodup.sublist hsuffix.sublist)).1

/-- A node farther away than one of the last nodes comes after it. -/
theorem Search.Labelled.mem_of_level_lt {u : Nat} {done : List Nat}
    (h : Labelled g source search) (hsuffix : w :: done <:+ search.order.toList)
    (hu : u ∈ search.order) (hlevel : search.level w < search.level u) : u ∈ done := by
  obtain ⟨front, hfront⟩ := hsuffix
  have hordered := h.ordered
  rw [← hfront] at hordered
  rw [← Array.mem_toList_iff, ← hfront, List.mem_append, List.mem_cons] at hu
  rcases hu with hu | rfl | hu
  · have hle := (List.pairwise_append.1 hordered).2.2 u hu w List.mem_cons_self
    exact absurd hlevel (Nat.not_lt.2 hle)
  · exact absurd hlevel (Nat.lt_irrefl _)
  · exact hu

namespace Settled

variable {done : List Nat} {state : Array Rat × Array Rat}

/-- All that depends on a node has been passed on to it when its turn comes. -/
theorem complete (hg : g.Closed) (h : Search.Finished g source search)
    (hsuffix : w :: done <:+ search.order.toList)
    (hs : Settled g source search totals done state) :
    dependency state.1 w = g.dependencyOn source w := by
  have horder : ∀ u ∈ w :: done, u ∈ search.order := fun u hu =>
    Array.mem_toList_iff.1 (hsuffix.subset hu)
  have hw : w ∈ search.order := horder w List.mem_cons_self
  rw [hs.dependency_eq w (h.labelled.lt_size hw)]
  apply h.sum_passedOn hg hw fun u hu => horder u (List.mem_cons_of_mem _ hu)
  intro u hu hlevel
  exact h.labelled.mem_of_level_lt hsuffix hu (by omega)

theorem dependency_propagate (hg : g.Closed) (h : Search.Finished g source search)
    (hsuffix : w :: done <:+ search.order.toList)
    (hs : Settled g source search totals done state) (hv : v < g.size) :
    dependency (propagate search state.1 w) v =
      ∑ u ∈ (w :: done).toFinset, g.passedOn source search u v := by
  have hnot : w ∉ done.toFinset := by
    rw [List.mem_toFinset]
    exact h.labelled.not_mem_of_suffix hsuffix
  rw [Adjacency.dependency_propagate (by rwa [hs.size]) (hs.complete hg h hsuffix),
    hs.dependency_eq v hv, List.toFinset_cons, Finset.sum_insert hnot, add_comm]

theorem settle (hg : g.Closed) (h : Search.Finished g source search)
    (hsuffix : w :: done <:+ search.order.toList)
    (hs : Settled g source search totals done state) :
    Settled g source search totals (w :: done) (settle search source w state) where
  size := (size_propagate _ _ _).trans hs.size
  size_totals := by
    simp only [Adjacency.settle]
    split
    · exact hs.size_totals
    · rw [Array.size_modify, hs.size_totals]
  dependency_eq v hv := hs.dependency_propagate hg h hsuffix hv
  total_eq v hv := by
    simp only [Adjacency.settle]
    by_cases hsource : w = source
    · have hiff : v ∈ w :: done ∧ v ≠ source ↔ v ∈ done ∧ v ≠ source := by
        rw [hsource, List.mem_cons]
        tauto
      rw [if_pos hsource, hs.total_eq v hv]
      simp only [hiff]
    · rw [if_neg hsource, dependency_modify (by rwa [hs.size_totals]), hs.total_eq v hv]
      by_cases hwv : w = v
      · subst hwv
        -- A node passes nothing on to itself.
        have hself : g.passedOn source search w w = 0 := by
          simp [passedOn, h.count_predecessors]
        rw [if_pos rfl, Adjacency.dependency_propagate (by rwa [hs.size])
          (hs.complete hg h hsuffix), hself, add_zero, hs.complete hg h hsuffix]
        simp [h.labelled.not_mem_of_suffix hsuffix, hsource]
      · simp [hwv, Ne.symm hwv]

end Settled

theorem settled_foldr {done : List Nat} (hg : g.Closed) (h : Search.Finished g source search)
    (hsize : totals.size = g.size) (hsuffix : done <:+ search.order.toList) :
    Settled g source search totals done
      (done.foldr (settle search source) (Array.replicate totals.size 0.0, totals)) := by
  induction done with
  | nil =>
    refine ⟨by simpa using hsize, hsize, ?_, ?_⟩
    · intro v _
      simp [dependency_replicate]
    · intro v _
      simp
  | cons w done ih =>
    exact (ih ((List.suffix_cons w done).trans hsuffix)).settle hg h hsuffix

/-- A search adds the dependencies of its source, apart from that on the source itself. -/
theorem dependency_accumulate (hg : g.Closed) (hsource : source < g.size)
    (hsize : totals.size = g.size) (hv : v < g.size) :
    dependency (accumulate (g.search source) source totals) v =
      dependency totals v + if source = v then 0 else g.dependencyOn source v := by
  have h : Search.Finished g source (g.search source) := Search.finished_search hg hsource
  rw [accumulate_eq_foldr, (settled_foldr hg h hsize List.suffix_rfl).total_eq v hv]
  simp only [Array.mem_toList_iff, h.mem_order hg]
  by_cases hreaches : g.Reaches source v
  · simp only [hreaches, true_and, ite_not, @eq_comm _ source v]
  · simp [hreaches, dependencyOn_of_not_reaches hreaches]

/-! ## Pairs of nodes -/

/-- The pairs of nodes apart from each other and from `v` of which the first reaches the second. -/
noncomputable def pairsApart (g : Adjacency) (v : Nat) : Finset (Nat × Nat) :=
  {p ∈ range g.size ×ˢ range g.size | p.1 ≠ p.2 ∧ p.1 ≠ v ∧ p.2 ≠ v ∧ g.Reaches p.1 p.2}

theorem card_pairsApart_le (hv : v < g.size) :
    (g.pairsApart v).card ≤ (g.size - 1) * (g.size - 2) := by
  have hsub : g.pairsApart v ⊆ ((range g.size).erase v).offDiag := by
    intro p hp
    simp only [pairsApart, Finset.mem_filter, Finset.mem_product] at hp
    simp only [Finset.mem_offDiag, Finset.mem_erase]
    exact ⟨⟨hp.2.2.1, hp.1.1⟩, ⟨hp.2.2.2.1, hp.1.2⟩, hp.2.1⟩
  refine (Finset.card_le_card hsub).trans_eq ?_
  rw [Finset.offDiag_card, Finset.card_erase_of_mem (Finset.mem_range.2 hv), Finset.card_range,
    ← Nat.mul_sub_one, Nat.sub_sub]

theorem sum_dependencyOn (g : Adjacency) (v : Nat) :
    (∑ s ∈ range g.size, if s = v then 0 else g.dependencyOn s v) =
      ∑ p ∈ g.pairsApart v, g.share p.1 p.2 v := by
  rw [pairsApart, Finset.sum_filter, Finset.sum_product]
  apply Finset.sum_congr rfl
  intro s _
  by_cases hs : s = v
  · simp [hs]
  rw [if_neg hs, dependencyOn, Finset.sum_filter]
  apply Finset.sum_congr rfl
  intro t _
  by_cases hst : s = t
  · subst hst
    simp [share_source hs]
  · simp [hs, hst]

theorem dependency_foldl_accumulate (hg : g.Closed) (hv : v < g.size) {k : Nat}
    (hk : k ≤ g.size) :
    let totals := (List.range k).foldl
      (fun totals source => accumulate (g.search source) source totals)
      (Array.replicate g.size (0.0 : Rat))
    totals.size = g.size ∧
      dependency totals v = ∑ s ∈ range k, if s = v then 0 else g.dependencyOn s v := by
  induction k with
  | zero => simp [dependency_replicate]
  | succ k ih =>
    obtain ⟨hsize, htotal⟩ := ih (Nat.le_of_succ_le hk)
    simp only [List.range_succ, List.foldl_append, List.foldl_cons, List.foldl_nil]
    refine ⟨by rw [size_accumulate, hsize], ?_⟩
    rw [dependency_accumulate hg hk hsize hv, htotal, Finset.sum_range_succ]

theorem dependency_dependencies (hg : g.Closed) (hv : v < g.size) :
    dependency (dependencies g : Array Rat) v = ∑ p ∈ g.pairsApart v, g.share p.1 p.2 v :=
  (dependency_foldl_accumulate hg hv le_rfl).2.trans (sum_dependencyOn g v)

theorem dependency_dependencies_mem (hg : g.Closed) (hv : v < g.size) :
    dependency (dependencies g : Array Rat) v ∈
      Set.Icc 0 (((g.size - 1) * (g.size - 2) : Nat) : Rat) := by
  rw [dependency_dependencies hg hv]
  refine ⟨Finset.sum_nonneg fun _ _ => share_nonneg _ _ _ _, ?_⟩
  calc ∑ p ∈ g.pairsApart v, g.share p.1 p.2 v
      ≤ ∑ _p ∈ g.pairsApart v, 1 := Finset.sum_le_sum fun _ _ => share_le_one _ _ _ _
    _ = (g.pairsApart v).card := by simp
    _ ≤ (((g.size - 1) * (g.size - 2) : Nat) : Rat) := Nat.cast_le.2 (card_pairsApart_le hv)

/-! ## Betweenness -/

/-- Dependencies never add up to more than the number of pairs by which they are divided. -/
theorem betweennessCentrality_eq (hg : g.Closed) (hsize : 3 ≤ g.size) :
    (g.betweennessCentrality : List Rat) = (dependencies g : Array Rat).toList.map
      (· / (((g.size - 1) * (g.size - 2) : Nat) : Rat)) := by
  rw [betweennessCentrality, if_neg (Nat.not_lt.2 hsize)]
  apply List.map_congr_left
  intro c hc
  obtain ⟨v, hv⟩ := List.mem_iff_getElem?.1 hc
  have hlt : v < g.size := by
    simpa using (List.getElem?_eq_some_iff.1 hv).1
  rw [getElem?_toList_eq_dependency (by rwa [size_dependencies]), Option.some_inj] at hv
  obtain ⟨hnonneg, hle⟩ := dependency_dependencies_mem hg hlt
  rw [hv] at hnonneg hle
  exact Scalar.clampUnit_of_mem
    ⟨div_nonneg hnonneg (Nat.cast_nonneg _), div_le_one_of_le₀ hle (Nat.cast_nonneg _)⟩

/-- A node's betweenness, times the number of ordered pairs of other nodes, is the sum of its
    shares in the shortest paths between them. It lies between zero and one as it is. -/
theorem betweenness_counts_shortest_paths (hg : g.Closed) (hsize : 3 ≤ g.size) :
    (∀ v < g.size, ∃ b, (g.betweennessCentrality : List Rat)[v]? = some b ∧
      b * (((g.size - 1) * (g.size - 2) : Nat) : Rat) =
        ∑ p ∈ g.pairsApart v, ((g.shortestPaths p.1 p.2).countP (v ∈ ·) : Rat) /
          (g.shortestPaths p.1 p.2).length) ∧
    (g.betweennessCentrality : List Rat) = (dependencies g : Array Rat).toList.map
      (· / (((g.size - 1) * (g.size - 2) : Nat) : Rat)) := by
  have heq := betweennessCentrality_eq hg hsize
  refine ⟨?_, heq⟩
  intro v hv
  have hpairs : (((g.size - 1) * (g.size - 2) : Nat) : Rat) ≠ 0 := by
    have hpos : 0 < (g.size - 1) * (g.size - 2) := Nat.mul_pos (by omega) (by omega)
    exact Nat.cast_ne_zero.2 hpos.ne'
  refine ⟨dependency (dependencies g) v / (((g.size - 1) * (g.size - 2) : Nat) : Rat), ?_, ?_⟩
  · rw [heq, List.getElem?_map, getElem?_toList_eq_dependency (by rwa [size_dependencies]),
      Option.map_some]
  · rw [div_mul_cancel₀ _ hpairs, dependency_dependencies hg hv]
    rfl

/-- Two arcs in parallel give two of the three shortest paths, and a loop gives none. -/
theorem betweenness_counts_shortest_paths_parallel :
    let g : Adjacency := #[[1, 1, 2], [3], [3, 2], []]
    g.Closed ∧ 3 ≤ g.size ∧ (g.betweennessCentrality : List Rat) = [0, 1 / 9, 1 / 18, 0] ∧
      ∑ p ∈ g.pairsApart 1, ((g.shortestPaths p.1 p.2).countP (1 ∈ ·) : Rat) /
        (g.shortestPaths p.1 p.2).length = 2 / 3 := by
  intro g
  have hg : g.Closed := by decide
  have hsize : 3 ≤ g.size := by decide
  have hvalue : (g.betweennessCentrality : List Rat) = [0, 1 / 9, 1 / 18, 0] := by decide +kernel
  obtain ⟨b, hb, hsum⟩ := (betweenness_counts_shortest_paths hg hsize).1 1 (by decide)
  obtain rfl : b = 1 / 9 := by
    rw [hvalue] at hb
    exact (Option.some_inj.1 hb).symm
  refine ⟨hg, hsize, hvalue, ?_⟩
  rw [← hsum]
  decide +kernel

end ArchAudit.Adjacency
