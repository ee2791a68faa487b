-- SUMMARY: Ratios, and how weighted ratios combine into a score.
import ArchAudit.Config.Basic
import ArchAudit.Intent.Basic

/-!
# Scores

A ratio over nothing takes the neutral score and counts as unmeasured. A score is
the weighted mean of its ratios; beside it stands the weighted mean of the measured
ones alone.
-/

namespace ArchAudit

variable {α : Type} [Scalar α]

-- ---------------------------------------------------------------------------
-- Ratios
-- ---------------------------------------------------------------------------

structure Ratio (α : Type) where
  value : α
  insufficient : Bool
deriving DecidableEq, Repr

namespace Ratio

/-- The value of what cannot be measured. -/
def unmeasured : Ratio α := ⟨neutralScore, true⟩

def ofCounts (numerator denominator : Nat) : Ratio α :=
  if denominator = 0 then unmeasured
  else ⟨(numerator : α) / (denominator : α), false⟩

def mean (values : List α) : Ratio α :=
  if values.isEmpty then unmeasured
  else ⟨Scalar.sum values / (values.length : α), false⟩

/-- What is missing to one. -/
def complement (r : Ratio α) : Ratio α :=
  ⟨1.0 - r.value, r.insufficient⟩

end Ratio

-- ---------------------------------------------------------------------------
-- Combination
-- ---------------------------------------------------------------------------

/-- The weighted mean, if the weights sum up to something. -/
def weightedMean (parts : List (α × α)) : Option α :=
  let total := Scalar.sum (parts.map (·.1))
  if total ≤ (0.0 : α) then none
  else some (Scalar.clampUnit (Scalar.sum (parts.map fun (w, x) => w * x) / total))

/-- A score with what is known of its parts. -/
structure CombinedScore (α : Type) where
  score : α
  insufficient : Bool
  /-- The weighted mean of the measured parts. -/
  measured : Option α
deriving DecidableEq, Repr

namespace CombinedScore

/-- Combines weighted ratios. -/
def ofParts (parts : List (α × Ratio α)) : CombinedScore α :=
  let values (parts : List (α × Ratio α)) : List (α × α) := parts.map fun (w, r) => (w, r.value)
  match weightedMean (values parts) with
  | none => ⟨neutralScore, true, none⟩
  | some score =>
    let known := parts.filter (!·.2.insufficient)
    ⟨score, known.length < parts.length, weightedMean (values known)⟩

/-- The result of an intent from its combined score. -/
def toResult (s : CombinedScore α) (kind : IntentKind) (evidence : List Evidence)
    (metrics : NameMap α) : IntentResult α :=
  { kind
    score := s.score
    evidence
    insufficientData := s.insufficient
    metrics := match s.insufficient, s.measured with
      | true, some measured => metrics.insert IntentResult.measuredMetric measured
      | _, _ => metrics }

end CombinedScore

-- ---------------------------------------------------------------------------
-- Health
-- ---------------------------------------------------------------------------

/-- The weighted mean of the three intents; one that is missing counts as neutral. -/
def overallHealth (results : List (IntentResult α)) (weights : HealthWeights α) : α :=
  let scoreOf (kind : IntentKind) : α :=
    ((IntentResult.ofKind? results kind).map (·.score)).getD neutralScore
  (weightedMean
    [(weights.separationOfConcerns, scoreOf .separationOfConcerns),
     (weights.informationHiding, scoreOf .informationHiding),
     (weights.dependencyInversion, scoreOf .dependencyInversion)]).getD neutralScore

end ArchAudit
