-- SUMMARY: Walks of a graph, how many lead to a node, and which nodes the shortest visit.
import ArchAudit.Graph.Centrality
import Mathlib.Algebra.BigOperators.Group.Finset.Sigma
import Mathlib.Algebra.BigOperators.Ring.Finset
import Mathlib.Algebra.Order.BigOperators.Group.List
import Mathlib.Algebra.Order.Ring.Nat
import Mathlib.Data.Nat.SuccPred
import Mathlib.Order.Lattice.Nat

/-!
# Walks

A walk is given by the nodes it visits, and the walks of one length from a node are listed
once for each choice among parallel arcs. Walks that pass a node after a given number of steps
are pairs of a walk before it and a walk after it. A shortest walk passes a node only after
as many steps as the node is away from the start, so the shortest walks through a node are
counted by a product.
-/

namespace ArchAudit.Adjacency

open Finset (range)

variable {g : Adjacency} {j k s t u v w : Nat}

/-- Every arc leads to a node of the graph. -/
def Closed (g : Adjacency) : Prop :=
  ∀ v w, w ∈ g.successors v → w < g.size

theorem closed_iff : g.Closed ↔ ∀ v < g.size, ∀ w ∈ g.successors v, w < g.size := by
  refine ⟨fun h v _ w hw => h v w hw, fun h v w hw => ?_⟩
  by_cases hv : v < g.size
  · exact h v hv w hw
  · simp [successors, hv] at hw

instance (g : Adjacency) : Decidable g.Closed :=
  decidable_of_iff _ closed_iff.symm

/-- The walks of a length that start at a node, as lists of the nodes they visit. -/
def walks (g : Adjacency) : Nat → Nat → List (List Nat)
  | 0, s => [[s]]
  | k + 1, s => (g.successors s).flatMap fun w => (g.walks k w).map (s :: ·)

/-- The number of walks of a length from one node to the other. -/
def walkCount (g : Adjacency) (k s t : Nat) : Nat :=
  (g.walks k s).countP fun p => p.getLast? = some t

/-! ## Counting walks -/

theorem walkCount_pos_iff :
    0 < g.walkCount k s t ↔ ∃ p ∈ g.walks k s, p.getLast? = some t := by
  simp only [walkCount, List.countP_pos_iff, decide_eq_true_iff]

theorem length_of_mem_walks {p : List Nat} (hp : p ∈ g.walks k s) : p.length = k + 1 := by
  induction k generalizing s p with
  | zero => simp_all [walks]
  | succ k ih =>
    simp only [walks, List.mem_flatMap, List.mem_map] at hp
    obtain ⟨w, _, q, hq, rfl⟩ := hp
    rw [List.length_cons, ih hq]

theorem head?_of_mem_walks {p : List Nat} (hp : p ∈ g.walks k s) : p.head? = some s := by
  cases k with
  | zero => simp_all [walks]
  | succ k =>
    simp only [walks, List.mem_flatMap, List.mem_map] at hp
    obtain ⟨w, _, q, _, rfl⟩ := hp
    rfl

theorem getLast?_cons_of_mem_walks {p : List Nat} (hp : p ∈ g.walks k w) :
    (s :: p).getLast? = p.getLast? := by
  have hlength := length_of_mem_walks hp
  cases p with
  | nil => cases hlength
  | cons a p => exact List.getLast?_cons_cons

/-- A sum over a list of nodes, taken node by node. -/
theorem sum_map_eq_sum_count {R : Type} [CommSemiring R] {l : List Nat} {n : Nat}
    (hl : ∀ x ∈ l, x < n) (f : Nat → R) : (l.map f).sum = ∑ x ∈ range n, l.count x * f x := by
  rw [Finset.sum_list_map_count]
  have hsub : l.toFinset ⊆ range n := by
    intro x hx
    exact Finset.mem_range.2 (hl x (List.mem_toFinset.1 hx))
  simp only [nsmul_eq_mul]
  apply Finset.sum_subset hsub
  intro x _ hx
  rw [List.count_eq_zero_of_not_mem (mt List.mem_toFinset.2 hx), Nat.cast_zero, zero_mul]

theorem countP_walks_succ (g : Adjacency) (k s : Nat) (q : List Nat → Bool) :
    (g.walks (k + 1) s).countP q =
      ((g.successors s).map fun w => (g.walks k w).countP fun p => q (s :: p)).sum := by
  simp only [walks, List.countP_flatMap, List.countP_map, Function.comp_def]

theorem walkCount_zero (g : Adjacency) (s t : Nat) :
    g.walkCount 0 s t = if s = t then 1 else 0 := by
  simp [walkCount, walks, List.countP_cons]

theorem walkCount_succ (g : Adjacency) (k s t : Nat) :
    g.walkCount (k + 1) s t = ((g.successors s).map fun w => g.walkCount k w t).sum := by
  rw [walkCount, countP_walks_succ]
  congr 1
  apply List.map_congr_left
  intro w _
  apply List.countP_congr
  intro p hp
  rw [getLast?_cons_of_mem_walks hp]

/-- A walk has a first arc. -/
theorem Closed.walkCount_succ (hg : g.Closed) :
    g.walkCount (k + 1) s t = ∑ w ∈ range g.size, (g.successors s).count w * g.walkCount k w t := by
  rw [Adjacency.walkCount_succ, sum_map_eq_sum_count (hg s)]
  rfl

/-- A walk of one or more arcs has a last arc. -/
theorem Closed.walkCount_succ_last (hg : g.Closed) (hs : s < g.size) :
    g.walkCount (k + 1) s t = ∑ u ∈ range g.size, g.walkCount k s u * (g.successors u).count t := by
  induction k generalizing s with
  | zero =>
    have ht : g.size ≤ t → 0 = (g.successors s).count t := by
      intro hle
      exact (List.count_eq_zero_of_not_mem fun hmem => (hg s t hmem).not_ge hle).symm
    simpa [hg.walkCount_succ, walkCount_zero, hs] using ht
  | succ k ih =>
    calc g.walkCount (k + 1 + 1) s t
        = ∑ w ∈ range g.size, (g.successors s).count w * g.walkCount (k + 1) w t :=
          hg.walkCount_succ
      _ = ∑ w ∈ range g.size, ∑ u ∈ range g.size,
            (g.successors s).count w * g.walkCount k w u * (g.successors u).count t := by
          apply Finset.sum_congr rfl
          intro w hw
          rw [ih (Finset.mem_range.1 hw), Finset.mul_sum]
          simp only [mul_assoc]
      _ = ∑ u ∈ range g.size, ∑ w ∈ range g.size,
            (g.successors s).count w * g.walkCount k w u * (g.successors u).count t :=
          Finset.sum_comm
      _ = ∑ u ∈ range g.size, g.walkCount (k + 1) s u * (g.successors u).count t := by
          simp only [← Finset.sum_mul, hg.walkCount_succ]

/-- Walks that pass a node after `j` steps are counted by what comes before and after it. -/
theorem countP_walks_add (g : Adjacency) (j k s v t : Nat) :
    ((g.walks (j + k) s).countP fun p => p[j]? = some v ∧ p.getLast? = some t) =
      g.walkCount j s v * g.walkCount k v t := by
  induction j generalizing s with
  | zero =>
    have hfirst : ∀ p ∈ g.walks k s, p[0]? = some s := by
      intro p hp
      rw [← List.head?_eq_getElem?, head?_of_mem_walks hp]
    rw [Nat.zero_add]
    by_cases hsv : s = v
    · subst hsv
      rw [walkCount_zero, if_pos rfl, one_mul, walkCount]
      apply List.countP_congr
      intro p hp
      simp [hfirst p hp]
    · rw [walkCount_zero, if_neg hsv, zero_mul, List.countP_eq_zero]
      intro p hp
      simp [hfirst p hp, hsv]
  | succ j ih =>
    rw [Nat.add_right_comm, countP_walks_succ, walkCount_succ, ← List.sum_map_mul_right]
    congr 1
    apply List.map_congr_left
    intro w _
    rw [← ih w]
    apply List.countP_congr
    intro p hp
    rw [getLast?_cons_of_mem_walks hp, List.getElem?_cons_succ]

/-- Walks can be put together. -/
theorem walkCount_add_pos (hj : 0 < g.walkCount j s v) (hk : 0 < g.walkCount k v t) :
    0 < g.walkCount (j + k) s t := by
  have hboth := Nat.mul_pos hj hk
  rw [← countP_walks_add] at hboth
  refine hboth.trans_le (List.countP_mono_left fun p _ hp => ?_)
  simp_all

/-- A walk can be cut at a node that it visits. -/
theorem walkCount_pos_of_visit {p : List Nat} (hp : p ∈ g.walks k s) (hlast : p.getLast? = some t)
    (hv : p[j]? = some v) : 0 < g.walkCount j s v ∧ 0 < g.walkCount (k - j) v t := by
  have hj : j ≤ k := by
    have := (List.getElem?_eq_some_iff.1 hv).1
    rw [length_of_mem_walks hp] at this
    omega
  have hsome : 0 < g.walkCount j s v * g.walkCount (k - j) v t := by
    rw [← countP_walks_add, Nat.add_sub_cancel' hj, List.countP_pos_iff]
    exact ⟨p, hp, by simp [hv, hlast]⟩
  exact ⟨Nat.pos_of_mul_pos_right hsome, Nat.pos_of_mul_pos_left hsome⟩

/-! ## Distance -/

/-- Arcs lead from one node to the other, one after the other. -/
def Reaches (g : Adjacency) : Nat → Nat → Prop :=
  Relation.ReflTransGen fun v w => w ∈ g.successors v

/-- The length of a shortest walk from one node to the other. -/
noncomputable def distance (g : Adjacency) (s t : Nat) : Nat :=
  sInf {k | 0 < g.walkCount k s t}

/-- The walks from one node to the other than which none is shorter. -/
noncomputable def shortestPaths (g : Adjacency) (s t : Nat) : List (List Nat) :=
  (g.walks (g.distance s t) s).filter fun p => p.getLast? = some t

theorem walkCount_succ_pos_iff :
    0 < g.walkCount (k + 1) s t ↔ ∃ w ∈ g.successors s, 0 < g.walkCount k w t := by
  rw [walkCount_succ, Nat.pos_iff_ne_zero, Ne, List.sum_eq_zero_iff]
  simp [Nat.pos_iff_ne_zero]

theorem reaches_iff : g.Reaches s t ↔ ∃ k, 0 < g.walkCount k s t := by
  constructor
  · intro h
    induction h using Relation.ReflTransGen.head_induction_on with
    | refl => exact ⟨0, by simp [walkCount_zero]⟩
    | head harc _ ih =>
      obtain ⟨k, hk⟩ := ih
      exact ⟨k + 1, walkCount_succ_pos_iff.2 ⟨_, harc, hk⟩⟩
  · rintro ⟨k, hk⟩
    induction k generalizing s with
    | zero =>
      by_cases hst : s = t
      · exact hst ▸ .refl
      · simp [walkCount_zero, hst] at hk
    | succ k ih =>
      obtain ⟨w, hw, hk⟩ := walkCount_succ_pos_iff.1 hk
      exact .head hw (ih hk)

theorem distance_le (h : 0 < g.walkCount k s t) : g.distance s t ≤ k :=
  Nat.sInf_le h

theorem Reaches.walkCount_pos (h : g.Reaches s t) : 0 < g.walkCount (g.distance s t) s t :=
  Nat.sInf_mem (reaches_iff.1 h)

theorem Reaches.isLeast_distance (h : g.Reaches s t) :
    IsLeast {k | ∃ p ∈ g.walks k s, p.getLast? = some t} (g.distance s t) :=
  ⟨walkCount_pos_iff.1 h.walkCount_pos, fun _ hk => distance_le (walkCount_pos_iff.2 hk)⟩

theorem length_shortestPaths (g : Adjacency) (s t : Nat) :
    (g.shortestPaths s t).length = g.walkCount (g.distance s t) s t := by
  rw [shortestPaths, walkCount, List.countP_eq_length_filter]

/-- A walk from a node leads no farther away than its length. -/
theorem Reaches.distance_le_add (h : g.Reaches s v) (hk : 0 < g.walkCount k v t) :
    g.distance s t ≤ g.distance s v + k :=
  distance_le (walkCount_add_pos h.walkCount_pos hk)

/-! ## Nodes on shortest paths -/

/-- A shortest path visits a node only after as many steps as the node is away. -/
theorem eq_distance_of_visit {p : List Nat} (hp : p ∈ g.shortestPaths s t) (hv : p[j]? = some v) :
    g.Reaches s v ∧ g.distance s v ≤ g.distance s t ∧ j = g.distance s v := by
  simp only [shortestPaths, List.mem_filter, decide_eq_true_iff] at hp
  obtain ⟨hbefore, hafter⟩ := walkCount_pos_of_visit hp.1 hp.2 hv
  have hreaches : g.Reaches s v := reaches_iff.2 ⟨j, hbefore⟩
  have hj : j ≤ g.distance s t := by
    have := (List.getElem?_eq_some_iff.1 hv).1
    rw [length_of_mem_walks hp.1] at this
    omega
  have hle := distance_le hbefore
  have hge := hreaches.distance_le_add hafter
  exact ⟨hreaches, by omega, by omega⟩

/-- The number of shortest paths through a node is the number of those to the node times that
    of the walks that make up the remaining distance. -/
theorem countP_shortestPaths (hle : g.distance s v ≤ g.distance s t) :
    (g.shortestPaths s t).countP (v ∈ ·) =
      g.walkCount (g.distance s v) s v * g.walkCount (g.distance s t - g.distance s v) v t := by
  rw [← countP_walks_add, Nat.add_sub_cancel' hle, shortestPaths, List.countP_filter]
  apply List.countP_congr
  intro p hp
  simp only [Bool.and_eq_true, decide_eq_true_iff]
  constructor
  · rintro ⟨hmem, hlast⟩
    obtain ⟨j, hj⟩ := List.mem_iff_getElem?.1 hmem
    have hpath : p ∈ g.shortestPaths s t := List.mem_filter.2 ⟨hp, by simpa using hlast⟩
    exact ⟨(eq_distance_of_visit hpath hj).2.2 ▸ hj, hlast⟩
  · rintro ⟨hvisit, hlast⟩
    exact ⟨List.mem_of_getElem? hvisit, hlast⟩

theorem countP_shortestPaths_of_lt (hlt : g.distance s t < g.distance s v) :
    (g.shortestPaths s t).countP (v ∈ ·) = 0 := by
  rw [List.countP_eq_zero]
  intro p hp hmem
  obtain ⟨j, hj⟩ := List.mem_iff_getElem?.1 (of_decide_eq_true hmem)
  exact (eq_distance_of_visit hp hj).2.1.not_gt hlt

end ArchAudit.Adjacency
