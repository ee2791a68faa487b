-- SUMMARY: Building the dependency graph from component records.
import ArchAudit.Component.Resolution
import ArchAudit.Graph.Centrality
import ArchAudit.Graph.Cycle

/-!
# Building a graph

Records are checked, put in order of their ids, and their references resolved.
Equal references collapse into one weighted edge. A reference without a target is
dropped with a diagnostic; one with several candidates is kept with a diagnostic.
-/

namespace ArchAudit

-- ---------------------------------------------------------------------------
-- Diagnostics
-- ---------------------------------------------------------------------------

inductive DiagnosticKind where
  | danglingReference
  | ambiguousReference
deriving DecidableEq, Repr

instance : Named DiagnosticKind where
  all := [.danglingReference, .ambiguousReference]
  name
    | .danglingReference => "dangling-reference"
    | .ambiguousReference => "ambiguous-reference"

/-- A finding about a reference that does not stop the run. -/
structure Diagnostic where
  kind : DiagnosticKind
  component : ComponentId
  reference : String
  message : String
deriving DecidableEq, Repr

def inQuotes (s : String) : String := "'" ++ s ++ "'"

namespace Diagnostic

def dangling (component : ComponentId) (reference : String) : Diagnostic where
  kind := .danglingReference
  component := component
  reference := reference
  message := inQuotes reference ++ " does not match any component"

def ambiguous (component : ComponentId) (reference : String) (candidates : Nat)
    (target : ComponentId) : Diagnostic where
  kind := .ambiguousReference
  component := component
  reference := reference
  message := inQuotes reference ++ " matches " ++ toString candidates
    ++ " components; resolved to " ++ inQuotes target

/-- What the resolution of a reference has to say. -/
def ofResolution (component : ComponentId) (reference : String) : Resolution → List Diagnostic
  | .resolved _ _ => []
  | .ambiguous target _ candidates => [ambiguous component reference candidates.length target]
  | .unresolved => [dangling component reference]

end Diagnostic

-- ---------------------------------------------------------------------------
-- Input errors
-- ---------------------------------------------------------------------------

/-- Why records do not make a graph. -/
inductive RecordError where
  | missingField (index : Nat) (field : String)
  | duplicateComponent (id : ComponentId)
deriving DecidableEq, Repr

def RecordError.message : RecordError → String
  | .missingField index field =>
    "component " ++ toString index ++ " has an empty required field " ++ inQuotes field
  | .duplicateComponent id => "component id " ++ inQuotes id ++ " appears more than once"

/-- The fields that must not be blank, in the order in which they are checked. -/
def ComponentRecord.requiredFields (r : ComponentRecord) : List (String × String) :=
  [("component_id", r.componentId), ("display_name", r.displayName), ("file_path", r.filePath)]

/-- What is wrong with a record at a position, given the ids before it. -/
def ComponentRecord.problem? (r : ComponentRecord) (index : Nat) (seen : List ComponentId) :
    Option RecordError :=
  match r.requiredFields.find? (Text.isBlankText ·.2) with
  | some (field, _) => some (.missingField index field)
  | none => if seen.contains r.componentId then some (.duplicateComponent r.componentId) else none

/-- The first problem of a list of records. -/
def firstProblem? (index : Nat) (seen : List ComponentId) :
    List ComponentRecord → Option RecordError
  | [] => none
  | r :: records =>
    match r.problem? index seen with
    | some error => some error
    | none => firstProblem? (index + 1) (r.componentId :: seen) records

-- ---------------------------------------------------------------------------
-- Edges
-- ---------------------------------------------------------------------------

/-- A reference together with the component that makes it. -/
structure Mention where
  source : ComponentId
  reference : Reference
deriving DecidableEq, Repr

/-- All references of the records, in order. -/
def mentions (records : List ComponentRecord) : List Mention :=
  records.flatMap fun r => r.references.map fun reference => ⟨r.componentId, reference⟩

namespace Mention

def resolve (addresses : List Address) (m : Mention) : Resolution :=
  Resolution.resolve addresses m.source m.reference.target

def diagnostics (addresses : List Address) (m : Mention) : List Diagnostic :=
  Diagnostic.ofResolution m.source m.reference.target (m.resolve addresses)

/-- The edge that the reference alone would make. -/
def edge? (addresses : List Address) (m : Mention) : Option Edge :=
  (m.resolve addresses).target?.map fun target =>
    { source := m.source, target, kind := m.reference.kind, weight := 1
      symbols := NameSet.ofList m.reference.symbols }

end Mention

/-- Collapses edges of one key and puts them in order. -/
def collapseEdges (edges : List Edge) : List Edge :=
  edges.foldl (fun l e => e.insert l) []

-- ---------------------------------------------------------------------------
-- Metrics
-- ---------------------------------------------------------------------------

namespace Graph

variable {α : Type} [Scalar α]

/-- The graph as lists of positions, without parallel edges and loops. -/
def adjacency (g : Graph α) : Adjacency :=
  let ids := g.ids
  (ids.map fun id => (g.dependencies id).map fun target => ids.idxOf target).toArray

/-- The metrics of a component with the given centralities. -/
def metricsOf (g : Graph α) (id : ComponentId) (degree betweenness : α) : Metrics α :=
  let edges := g.dependencyEdges
  let efferent := (edges.filter (·.source == id)).length
  let afferent := (edges.filter (·.target == id)).length
  { afferent, efferent
    degreeCentrality := degree
    betweennessCentrality := betweenness
    instability :=
      if afferent + efferent = 0 then 0.5 else (efferent : α) / ((afferent + efferent : Nat) : α) }

/-- The graph with the metrics of all components filled in. -/
def withMetrics (g : Graph α) : Graph α :=
  let adjacency := g.adjacency
  let centralities : List (α × α) :=
    adjacency.degreeCentrality.zip adjacency.betweennessCentrality
  { g with
    components := List.zipWith
      (fun c (degree, betweenness) => { c with metrics := g.metricsOf c.id degree betweenness })
      g.components centralities }

end Graph

-- ---------------------------------------------------------------------------
-- Build
-- ---------------------------------------------------------------------------

/-- A graph and what was noticed while it was built. -/
structure GraphBuild (α : Type) where
  graph : Graph α
  diagnostics : List Diagnostic
deriving DecidableEq, Repr

/-- The graph of records that are in order. -/
def GraphBuild.ofSorted {α : Type} [Scalar α] (records : List ComponentRecord) : GraphBuild α :=
  let components : List (Component α) := records.map Component.ofRecord
  let addresses := components.map Address.ofComponent
  let mentions := mentions records
  let edges := collapseEdges (mentions.filterMap (·.edge? addresses))
  { graph := (Graph.mk components edges).withMetrics
    diagnostics := mentions.flatMap (·.diagnostics addresses) }

/-- Records in ascending order of their ids. -/
def sortRecords (records : List ComponentRecord) : List ComponentRecord :=
  records.mergeSort fun a b => decide (a.componentId ≤ b.componentId)

/-- Builds the graph, unless a record is incomplete or an id is repeated. -/
def GraphBuild.ofRecords {α : Type} [Scalar α] (records : List ComponentRecord) :
    Except RecordError (GraphBuild α) :=
  match firstProblem? 0 [] records with
  | some error => .error error
  | none => .ok (.ofSorted (sortRecords records))

end ArchAudit
