-- SUMMARY: Separation of concerns: layers and feature domains that stay apart.
import ArchAudit.Intent.Score
import ArchAudit.Layer.Classifier

/-!
# Separation of concerns

Dependencies between layers should lead inwards, and dependencies between feature
domains should be few.
-/

namespace ArchAudit

variable {α : Type} [Scalar α]

namespace Graph

/-- The layers of the components that have one. -/
def layersBy (g : Graph α) (k : LayerClassifier) : List (ComponentId × Layer) :=
  g.components.filterMap fun c => (k.classify c.filePath).map fun layer => (c.id, layer)

/-- The feature domains of the components that have one. -/
def domainsBy (g : Graph α) (k : LayerClassifier) : List (ComponentId × String) :=
  g.components.filterMap fun c => (k.domainKey c.filePath).map fun key => (c.id, key)

end Graph

/-- An edge both of whose ends carry a label. -/
structure LabelledEdge (β : Type) where
  edge : Edge
  source : β
  target : β
deriving DecidableEq, Repr

/-- The dependency edges with the labels of their ends, where both have one. -/
def Graph.labelledEdges {β : Type} (g : Graph α) (labels : List (ComponentId × β)) :
    List (LabelledEdge β) :=
  g.dependencyEdges.filterMap fun e => do
    return ⟨e, ← labels.lookup e.source, ← labels.lookup e.target⟩

namespace Separation

/-- A dependency of an inner on an outer layer. -/
def outwardEvidence (e : LabelledEdge Layer) : Evidence where
  components := [e.edge.source, e.edge.target]
  justification := e.edge.source ++ " (" ++ Named.name e.source ++ ") depends outward on "
    ++ e.edge.target ++ " (" ++ Named.name e.target ++ ")"
  signal := .weakens

/-- Dependencies of one feature domain on another, with all components involved. -/
def domainEvidence (crossing : List (LabelledEdge String)) (source target : String) : Evidence :=
  let edges := crossing.filter fun e => e.source = source && e.target = target
  { components := ascendingNames (edges.flatMap fun e => [e.edge.source, e.edge.target])
    justification := "domain '" ++ source ++ "' reaches into domain '" ++ target ++ "'"
    signal := .weakens }

/-- The distinct pairs of domains, ascending. -/
def domainPairs (crossing : List (LabelledEdge String)) : List (String × String) :=
  (ascendingNames (crossing.map (·.source))).flatMap fun source =>
    (ascendingNames ((crossing.filter (·.source = source)).map (·.target))).map fun target =>
      (source, target)

/-- The components that sit in a layer. -/
def layeredEvidence (layered : List ComponentId) (total : Nat) : List Evidence :=
  if layered.isEmpty then []
  else
    [{ components := layered
       justification := toString layered.length ++ " of " ++ toString total
         ++ " components sit in a recognizable layer"
       signal := .supports }]

/-- Scores separation of concerns. -/
def detect (k : LayerClassifier) (weights : SeparationWeights α) (g : Graph α) :
    IntentResult α :=
  if g.size < 2 then .insufficient .separationOfConcerns
  else
    let layers := g.layersBy k
    let crossLayer := (g.labelledEdges layers).filter fun e => e.source ≠ e.target
    let outward := crossLayer.filter fun e => e.source.violatesDependencyOn e.target
    let withDomains := g.labelledEdges (g.domainsBy k)
    let crossDomain := withDomains.filter fun e => e.source ≠ e.target
    let respect : Ratio α := .ofCounts (crossLayer.length - outward.length) crossLayer.length
    let cross : Ratio α := .ofCounts crossDomain.length withDomains.length
    let combined := CombinedScore.ofParts
      [(weights.layerRespect, respect), (weights.domainIsolation, cross.complement)]
    combined.toResult .separationOfConcerns
      (outward.map outwardEvidence
        ++ (domainPairs crossDomain).map (fun (s, t) => domainEvidence crossDomain s t)
        ++ layeredEvidence (layers.map (·.1)) g.size)
      (.ofList
        [("layer_respect_ratio", respect.value),
         ("cross_domain_ratio", cross.value),
         ("layered_fraction", (layers.length : α) / (g.size : α))])

end Separation

end ArchAudit
