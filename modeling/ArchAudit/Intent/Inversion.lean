-- SUMMARY: Dependency inversion: policy that reaches detail through abstractions.
import ArchAudit.Intent.Separation

/-!
# Dependency inversion

Components that others depend on should declare abstractions, components that
depend on others should have their dependencies injected, and a dependency of
policy on detail should end at an abstraction.
-/

namespace ArchAudit

namespace Inversion

variable {α : Type} [Scalar α]

/-- A dependency on a lower policy level, and whether it ends at an abstraction. -/
structure Descent where
  edge : LabelledEdge Layer
  inverted : Bool
deriving DecidableEq, Repr

/-- The dependencies that lead to a lower policy level. -/
def descents (k : LayerClassifier) (g : Graph α) : List Descent :=
  ((g.labelledEdges (g.layersBy k)).filter fun e =>
      e.target.policyLevel < e.source.policyLevel).filterMap fun e =>
    (g.component? e.edge.target).map fun target => ⟨e, target.declaresAbstraction⟩

def descentEvidence (d : Descent) : Evidence :=
  let e := d.edge
  let source := e.edge.source ++ " (" ++ Named.name e.source ++ ")"
  { components := [e.edge.source, e.edge.target]
    justification :=
      if d.inverted then
        source ++ " reaches " ++ Named.name e.target ++ " through the abstraction "
          ++ e.edge.target
      else
        source ++ " depends on concrete " ++ Named.name e.target ++ " component "
          ++ e.edge.target
    signal := if d.inverted then .supports else .weakens }

/-- Scores dependency inversion. -/
def detect (k : LayerClassifier) (weights : InversionWeights α) (g : Graph α) :
    IntentResult α :=
  if g.size < 2 then .insufficient .dependencyInversion
  else
    let dependedUpon := g.components.filter fun c => 0 < c.metrics.afferent
    let depending := g.components.filter fun c => 0 < c.metrics.efferent
    let descents := descents k g
    let abstraction : Ratio α :=
      .ofCounts (dependedUpon.filter (·.declaresAbstraction)).length dependedUpon.length
    let injection : Ratio α :=
      .ofCounts (depending.filter (·.usesDependencyInjection)).length depending.length
    let inversion : Ratio α :=
      .ofCounts (descents.filter (·.inverted)).length descents.length
    let combined := CombinedScore.ofParts
      [(weights.abstraction, abstraction), (weights.injection, injection),
       (weights.inversionRatio, inversion)]
    combined.toResult .dependencyInversion (descents.map descentEvidence)
      (.ofList
        [("abstraction_fraction", abstraction.value),
         ("injection_fraction", injection.value),
         ("inversion_ratio", inversion.value)])

end Inversion

end ArchAudit
