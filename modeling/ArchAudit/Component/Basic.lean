-- SUMMARY: Components as the extractor delivers them and as nodes of the graph.
import ArchAudit.Data.Names
import ArchAudit.Number.Scalar
import ArchAudit.Text.Basic

/-!
# Components

A `ComponentRecord` is what the extractor says about one component, references
included. A `Component` is the node made from it, with its metrics.
-/

namespace ArchAudit

/-- Names a component within one run. -/
abbrev ComponentId := String

-- ---------------------------------------------------------------------------
-- References
-- ---------------------------------------------------------------------------

/-- How one component depends on another. -/
inductive EdgeKind where
  | imports
  | calls
  | inherits
deriving DecidableEq, Repr

namespace EdgeKind

instance : Named EdgeKind where
  all := [.imports, .calls, .inherits]
  name
    | .imports => "import"
    | .calls => "call"
    | .inherits => "inherit"

def rank : EdgeKind → Nat
  | .imports => 0
  | .calls => 1
  | .inherits => 2

end EdgeKind

/-- A dependency as the source text names it, before resolution. -/
structure Reference where
  target : String
  kind : EdgeKind
  symbols : List String
deriving DecidableEq, Repr

-- ---------------------------------------------------------------------------
-- Records
-- ---------------------------------------------------------------------------

/-- One component as delivered by the extractor. -/
structure ComponentRecord where
  componentId : ComponentId
  displayName : String
  filePath : String
  loc : Nat
  exportedSymbols : NameSet
  privateSymbols : NameSet
  references : List Reference
  declaresAbstraction : Bool
  usesDependencyInjection : Bool
deriving DecidableEq, Repr

-- ---------------------------------------------------------------------------
-- Nodes
-- ---------------------------------------------------------------------------

/-- What the graph tells about a component. -/
structure Metrics (α : Type) where
  /-- Edges that arrive from other components. -/
  afferent : Nat
  /-- Edges that lead to other components. -/
  efferent : Nat
  degreeCentrality : α
  betweennessCentrality : α
  /-- The share of edges that lead away, one half if there are none. -/
  instability : α
deriving DecidableEq, Repr

namespace Metrics

variable {α : Type}

def zero [Scalar α] : Metrics α := ⟨0, 0, 0.0, 0.0, 0.0⟩

def totalCoupling (m : Metrics α) : Nat :=
  m.afferent + m.efferent

end Metrics

/-- A node of the dependency graph. -/
structure Component (α : Type) where
  id : ComponentId
  name : String
  filePath : String
  loc : Nat
  exportedSymbols : NameSet
  privateSymbols : NameSet
  declaresAbstraction : Bool
  usesDependencyInjection : Bool
  metrics : Metrics α
deriving DecidableEq, Repr

namespace Component

variable {α : Type}

/-- The node of a record, with its path in forward slashes and no metrics yet. -/
def ofRecord [Scalar α] (r : ComponentRecord) : Component α where
  id := r.componentId
  name := r.displayName
  filePath := Text.forwardSlashes r.filePath
  loc := r.loc
  exportedSymbols := r.exportedSymbols
  privateSymbols := r.privateSymbols
  declaresAbstraction := r.declaresAbstraction
  usesDependencyInjection := r.usesDependencyInjection
  metrics := .zero

def symbolCount (c : Component α) : Nat :=
  c.exportedSymbols.size + c.privateSymbols.size

/-- The share of declared symbols that are private, if any are declared. -/
def privateRatio [Scalar α] (c : Component α) : Option α :=
  if c.symbolCount = 0 then none
  else some ((c.privateSymbols.size : α) / (c.symbolCount : α))

end Component

end ArchAudit
