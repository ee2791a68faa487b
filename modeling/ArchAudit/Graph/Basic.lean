-- SUMMARY: The dependency graph: collapsed edges between components, and queries on it.
import ArchAudit.Component.Basic

/-!
# Dependency graphs

Components are kept in ascending order of their ids, and edges in ascending order
of source, target and kind.
-/

namespace ArchAudit

-- ---------------------------------------------------------------------------
-- Edges
-- ---------------------------------------------------------------------------

/-- All references of one kind from one component to another. -/
structure Edge where
  source : ComponentId
  target : ComponentId
  kind : EdgeKind
  /-- The number of references. -/
  weight : Nat
  symbols : NameSet
deriving DecidableEq, Repr

namespace Edge

def isSelfLoop (e : Edge) : Bool :=
  e.source == e.target

/-- The edge comes first in the order of source, target and kind. -/
def precedes (e f : Edge) : Bool :=
  e.source < f.source ||
    (e.source == f.source && (e.target < f.target ||
      (e.target == f.target && e.kind.rank < f.kind.rank)))

/-- Two edges of the same kind between the same components taken together. -/
def merge (e f : Edge) : Edge :=
  { e with weight := e.weight + f.weight, symbols := e.symbols.union f.symbols }

/-- Adds an edge to an ascending list, merging it with one of its own key. -/
def insert (e : Edge) : List Edge → List Edge
  | [] => [e]
  | f :: l =>
    if e.precedes f then e :: f :: l
    else if f.precedes e then f :: insert e l
    else f.merge e :: l

/-- The number of references that edges stand for. -/
def totalWeight (l : List Edge) : Nat :=
  l.foldr (fun e total => e.weight + total) 0

end Edge

-- ---------------------------------------------------------------------------
-- Graphs
-- ---------------------------------------------------------------------------

structure Graph (α : Type) where
  components : List (Component α)
  edges : List Edge
deriving DecidableEq, Repr

namespace Graph

variable {α : Type}

def size (g : Graph α) : Nat :=
  g.components.length

def isEmpty (g : Graph α) : Bool :=
  g.components.isEmpty

def ids (g : Graph α) : List ComponentId :=
  g.components.map (·.id)

/-- The edges that join two distinct components. -/
def dependencyEdges (g : Graph α) : List Edge :=
  g.edges.filter (!·.isSelfLoop)

def component? (g : Graph α) (id : ComponentId) : Option (Component α) :=
  g.components.find? (·.id == id)

def outgoing (g : Graph α) (id : ComponentId) : List Edge :=
  g.edges.filter (·.source == id)

def incoming (g : Graph α) (id : ComponentId) : List Edge :=
  g.edges.filter (·.target == id)

/-- Whether an edge of any kind leads from one component to the other. -/
def hasEdge (g : Graph α) (source target : ComponentId) : Bool :=
  g.edges.any fun e => e.source == source && e.target == target

/-- The number of references from one component to the other. -/
def weightBetween (g : Graph α) (source target : ComponentId) : Nat :=
  Edge.totalWeight (g.edges.filter fun e => e.source == source && e.target == target)

/-- The distinct other components that a component depends on, ascending. -/
def dependencies (g : Graph α) (id : ComponentId) : List ComponentId :=
  ascendingNames ((g.dependencyEdges.filter (·.source == id)).map (·.target))

/-- The ordered pairs of distinct components joined by an edge, ascending. -/
def arcs (g : Graph α) : List (ComponentId × ComponentId) :=
  g.components.flatMap fun c => (g.dependencies c.id).map fun target => (c.id, target)

end Graph

end ArchAudit
