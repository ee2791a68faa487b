-- SUMMARY: Architectural intents, their evidence and their scores.
import ArchAudit.Graph.Basic

/-!
# Intents

An intent is a design goal that a graph meets to some degree. Its result has a
score between zero and one, the evidence for and against it, and the ratios that
the score was combined from.
-/

namespace ArchAudit

inductive IntentKind where
  | separationOfConcerns
  | informationHiding
  | dependencyInversion
deriving DecidableEq, Repr

namespace IntentKind

instance : Named IntentKind where
  all := [.separationOfConcerns, .informationHiding, .dependencyInversion]
  name
    | .separationOfConcerns => "separation-of-concerns"
    | .informationHiding => "information-hiding"
    | .dependencyInversion => "dependency-inversion"

/-- The name of the intent in running text. -/
def title : IntentKind → String
  | .separationOfConcerns => "separation of concerns"
  | .informationHiding => "information hiding"
  | .dependencyInversion => "dependency inversion"

/-- The place of the intent in their order. -/
def rank : IntentKind → Nat
  | .separationOfConcerns => 0
  | .informationHiding => 1
  | .dependencyInversion => 2

end IntentKind

-- ---------------------------------------------------------------------------
-- Evidence
-- ---------------------------------------------------------------------------

inductive EvidenceSignal where
  | supports
  | weakens
deriving DecidableEq, Repr

instance : Named EvidenceSignal where
  all := [.supports, .weakens]
  name
    | .supports => "supports"
    | .weakens => "weakens"

structure Evidence where
  components : List ComponentId
  justification : String
  signal : EvidenceSignal
deriving DecidableEq, Repr

-- ---------------------------------------------------------------------------
-- Results
-- ---------------------------------------------------------------------------

/-- The score of what cannot be measured. -/
def neutralScore {α : Type} [Scalar α] : α := 0.5

structure IntentResult (α : Type) where
  kind : IntentKind
  score : α
  evidence : List Evidence
  /-- Some part of the score had nothing to measure. -/
  insufficientData : Bool
  /-- The ratios that the score was combined from. -/
  metrics : NameMap α
deriving DecidableEq, Repr

namespace IntentResult

variable {α : Type}

/-- The result for a graph that is too small to say anything. -/
def insufficient [Scalar α] (kind : IntentKind) : IntentResult α :=
  { kind, score := neutralScore, evidence := [], insufficientData := true, metrics := .empty }

/-- The metric that holds the score of the measured parts if some were not
    measured. -/
def measuredMetric : String := "measured_score"

/-- The score over the parts that were measured, if there are any. -/
def measuredScore (r : IntentResult α) : Option α :=
  if r.insufficientData then r.metrics.get? measuredMetric else some r.score

/-- Whether supporting evidence names the component. -/
def supports (r : IntentResult α) (id : ComponentId) : Bool :=
  r.evidence.any fun e => e.signal = .supports && e.components.contains id

/-- The first result of a kind. -/
def ofKind? (results : List (IntentResult α)) (kind : IntentKind) : Option (IntentResult α) :=
  results.find? (·.kind = kind)

end IntentResult

end ArchAudit
