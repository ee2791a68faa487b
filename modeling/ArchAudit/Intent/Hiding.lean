-- SUMMARY: Information hiding: components that keep most of themselves private.
import ArchAudit.Intent.Score

/-!
# Information hiding

Components should keep symbols private and declare abstractions, and others should
use only what a component exports.
-/

namespace ArchAudit

namespace Hiding

variable {α : Type} [Scalar α]

/-- The private share from which a component counts as well encapsulated. -/
def encapsulatedRatio : α := 0.5

/-- What the symbols of a component say. -/
def symbolEvidence (c : Component α) : List Evidence :=
  match c.privateRatio with
  | none => []
  | some ratio =>
    if encapsulatedRatio ≤ ratio then
      [{ components := [c.id]
         justification := "keeps " ++ toString c.privateSymbols.size ++ " of "
           ++ toString c.symbolCount ++ " symbols private"
         signal := .supports }]
    else if c.privateSymbols.isEmpty then
      [{ components := [c.id]
         justification := "exposes all " ++ toString c.exportedSymbols.size ++ " of its symbols"
         signal := .weakens }]
    else []

/-- An edge that carries symbols, with those that its target does not export. -/
structure SymbolUse where
  edge : Edge
  leaked : List String
deriving DecidableEq, Repr

/-- The dependency edges that carry symbols. -/
def symbolUses (g : Graph α) : List SymbolUse :=
  (g.dependencyEdges.filter (!·.symbols.isEmpty)).filterMap fun e =>
    (g.component? e.target).map fun target =>
      ⟨e, e.symbols.toList.filter (!target.exportedSymbols.contains ·)⟩

/-- A use of symbols that are not exported. -/
def leakEvidence (u : SymbolUse) : Evidence where
  components := [u.edge.source, u.edge.target]
  justification := u.edge.source ++ " uses non-exported symbols of " ++ u.edge.target ++ ": "
    ++ ", ".intercalate u.leaked
  signal := .weakens

/-- Scores information hiding. -/
def detect (weights : HidingWeights α) (g : Graph α) : IntentResult α :=
  if g.size < 2 then .insufficient .informationHiding
  else
    let uses := symbolUses g
    let leaks := uses.filter (!·.leaked.isEmpty)
    let privateRatio : Ratio α := .mean (g.components.filterMap (·.privateRatio))
    let abstraction : Ratio α :=
      .ofCounts (g.components.filter (·.declaresAbstraction)).length g.size
    let boundary : Ratio α := .ofCounts (uses.length - leaks.length) uses.length
    let combined := CombinedScore.ofParts
      [(weights.privateRatio, privateRatio), (weights.abstraction, abstraction),
       (weights.boundaryClarity, boundary)]
    combined.toResult .informationHiding
      (g.components.flatMap symbolEvidence ++ leaks.map leakEvidence)
      (.ofList
        [("private_symbol_ratio", privateRatio.value),
         ("abstraction_fraction", abstraction.value),
         ("boundary_clarity", boundary.value)])

end Hiding

end ArchAudit
