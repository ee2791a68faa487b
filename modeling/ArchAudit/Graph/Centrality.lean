-- SUMMARY: Degree and betweenness centrality of a graph given by adjacency lists.
import ArchAudit.Number.Scalar

/-!
# Centrality

Nodes are the positions of the adjacency list. Betweenness is computed source by
source: a breadth-first search counts shortest paths and records predecessors, and
the dependencies of the source are then summed up in reverse order of discovery.
-/

namespace ArchAudit

/-- The out-neighbours of each node, in order; repeats are parallel arcs. -/
abbrev Adjacency := Array (List Nat)

namespace Adjacency

variable {α : Type} [Scalar α]

def successors (g : Adjacency) (v : Nat) : List Nat :=
  g.getD v []

-- ---------------------------------------------------------------------------
-- Degree
-- ---------------------------------------------------------------------------

/-- Arcs that leave the node plus arcs that arrive at it. -/
def degree (g : Adjacency) (v : Nat) : Nat :=
  (g.successors v).length + g.toList.flatten.count v

/-- Degree over its greatest value in a graph without parallel arcs and loops. -/
def degreeCentrality (g : Adjacency) : List α :=
  let n := g.size
  if n < 2 then List.replicate n 0.0
  else (List.range n).map fun v => (g.degree v : α) / (2.0 * ((n - 1 : Nat) : α))

-- ---------------------------------------------------------------------------
-- Shortest paths
-- ---------------------------------------------------------------------------

/-- What the search knows of a node. -/
structure Visit (α : Type) where
  distance : Option Nat
  /-- The number of shortest paths found. -/
  paths : α
  /-- The nodes before this one on shortest paths, once per arc. -/
  predecessors : List Nat

/-- The state of a breadth-first search. -/
structure Search (α : Type) where
  visits : Array (Visit α)
  /-- The nodes in the order in which they were discovered. -/
  order : Array Nat
  /-- The number of nodes that have been expanded, which are the first ones. -/
  expanded : Nat

namespace Search

/-- What is known of a node; nothing is known of a node outside the graph. -/
def visit (s : Search α) (v : Nat) : Visit α :=
  match s.visits[v]? with
  | some x => x
  | none => ⟨none, 0.0, []⟩

/-- Changes what is known of a node. -/
def update : Search α → Nat → (Visit α → Visit α) → Search α
  | ⟨visits, order, expanded⟩, v, f => ⟨visits.modify v f, order, expanded⟩

def start (n source : Nat) : Search α where
  visits := (Array.replicate n ⟨none, 0.0, []⟩).modify source fun _ => ⟨some 0, 1.0, []⟩
  order := #[source]
  expanded := 0

/-- Puts a node that is seen for the first time at the end of the order. -/
def discover (s : Search α) (w distance : Nat) : Search α :=
  if (s.visit w).distance.isNone then
    let s := s.update w fun x => { x with distance := some distance }
    { s with order := s.order.push w }
  else s

/-- Follows the arc from `v`, at the given distance and with the given number of
    paths, to `w`. -/
def follow (v distance : Nat) (paths : α) (s : Search α) (w : Nat) : Search α :=
  let s := s.discover w (distance + 1)
  if (s.visit w).distance = some (distance + 1) then
    s.update w fun x =>
      { x with paths := x.paths + paths, predecessors := x.predecessors ++ [v] }
  else s

/-- Expands a node, the first one that has not been expanded. -/
def expand (g : Adjacency) (s : Search α) (v : Nat) : Search α :=
  let x := s.visit v
  (g.successors v).foldl (follow v (x.distance.getD 0) x.paths)
    { s with expanded := s.expanded + 1 }

/-- Expands nodes until none is left. A node is discovered once, so the number of
    nodes is enough fuel. -/
def run (g : Adjacency) : Nat → Search α → Search α
  | 0, s => s
  | fuel + 1, s =>
    match s.order[s.expanded]? with
    | none => s
    | some v => run g fuel (s.expand g v)

end Search

/-- The finished search from a source. -/
def search (g : Adjacency) (source : Nat) : Search α :=
  Search.run g g.size (Search.start g.size source)

-- ---------------------------------------------------------------------------
-- Betweenness
-- ---------------------------------------------------------------------------

/-- The dependency of the source on a node. -/
def dependency (delta : Array α) (w : Nat) : α :=
  match delta[w]? with
  | some d => d
  | none => 0.0

/-- Passes the dependency of `w` on to its predecessors. -/
def propagate (s : Search α) (delta : Array α) (w : Nat) : Array α :=
  let paths := (s.visit w).paths
  let amount := 1.0 + dependency delta w
  (s.visit w).predecessors.foldl
    (fun delta v => delta.modify v (· + (s.visit v).paths / paths * amount))
    delta

/-- Adds the dependencies of one source to the totals, last node first. -/
def accumulate (s : Search α) (source : Nat) (totals : Array α) : Array α :=
  (s.order.toList.reverse.foldl
    (fun (delta, totals) w =>
      let delta := propagate s delta w
      (delta, if w = source then totals else totals.modify w (· + dependency delta w)))
    (Array.replicate totals.size (0.0 : α), totals)).2

/-- The dependencies of all sources, summed up per node. -/
def dependencies (g : Adjacency) : Array α :=
  (List.range g.size).foldl
    (fun totals source => accumulate (g.search source) source totals)
    (Array.replicate g.size 0.0)

/-- Betweenness over the number of ordered pairs of other nodes. -/
def betweennessCentrality (g : Adjacency) : List α :=
  let n := g.size
  if n < 3 then List.replicate n 0.0
  else
    let scale : α := (((n - 1) * (n - 2) : Nat) : α)
    (dependencies g).toList.map fun c => Scalar.clampUnit (c / scale)

end Adjacency

end ArchAudit
