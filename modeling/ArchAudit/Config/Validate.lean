-- SUMMARY: Which configurations are accepted, and what is said about the others.
import ArchAudit.Layer.Classifier

/-!
# Validation

Checks run in a fixed order and the first failure is reported.
-/

namespace ArchAudit

/-- Why a configuration is refused. -/
inductive ConfigError (α : Type) where
  | outOfRange (field : String) (value : α) (expected : String)
  | zeroWeights (group : String)
  | pattern (error : PatternError)
  /-- The text is not a configuration at all. -/
  | unreadable
deriving DecidableEq, Repr

namespace Config

variable {α : Type} [Scalar α]

def unitRange : String := "a value in [0, 1]"

def positiveUnitRange : String := "a value in (0, 1]"

def weightRange : String := "a finite, non-negative weight"

/-- Requires a number between zero and one. -/
def checkUnit (field : String) (value : α) : Except (ConfigError α) Unit :=
  if Scalar.isFinite value && Scalar.inUnit value then .ok ()
  else .error (.outOfRange field value unitRange)

/-- Requires a number above zero and at most one. -/
def checkPositiveUnit (field : String) (value : α) : Except (ConfigError α) Unit :=
  if !Scalar.isFinite value || value ≤ 0.0 || 1.0 < value then
    .error (.outOfRange field value positiveUnitRange)
  else .ok ()

/-- Requires a weight that is finite and not negative. -/
def checkWeight (field : String) (value : α) : Except (ConfigError α) Unit :=
  if !Scalar.isFinite value || value < 0.0 then .error (.outOfRange field value weightRange)
  else .ok ()

/-- Requires weights of which at least one counts. -/
def checkWeights (group : String) (weights : List (String × α)) :
    Except (ConfigError α) Unit := do
  weights.forM fun (field, value) => checkWeight (group ++ "." ++ field) value
  if Scalar.sum (weights.map (·.2)) ≤ (0.0 : α) then throw (.zeroWeights group)

/-- The weights of a configuration by group. -/
def weightGroups (c : Config α) : List (String × List (String × α)) :=
  let i := c.intents
  [("intents.separation",
      [("layer_respect", i.separationWeights.layerRespect),
       ("domain_isolation", i.separationWeights.domainIsolation)]),
   ("intents.hiding",
      [("private_ratio", i.hidingWeights.privateRatio),
       ("abstraction", i.hidingWeights.abstraction),
       ("boundary_clarity", i.hidingWeights.boundaryClarity)]),
   ("intents.inversion",
      [("abstraction", i.inversionWeights.abstraction),
       ("injection", i.inversionWeights.injection),
       ("inversion_ratio", i.inversionWeights.inversionRatio)]),
   ("intents.health",
      [("separation_of_concerns", i.healthWeights.separationOfConcerns),
       ("information_hiding", i.healthWeights.informationHiding),
       ("dependency_inversion", i.healthWeights.dependencyInversion)])]

/-- The classifier of the configured layer patterns. -/
def classifier (c : Config α) : Except (ConfigError α) LayerClassifier :=
  match LayerClassifier.ofPatterns c.layers with
  | .ok k => .ok k
  | .error e => .error (.pattern e)

/-- Accepts a configuration whose parameters are all in range. -/
def validate (c : Config α) : Except (ConfigError α) Unit := do
  checkUnit "styles.confidence_threshold" c.styles.confidenceThreshold
  checkUnit "styles.hybrid_margin" c.styles.hybridMargin
  checkPositiveUnit "styles.full_coverage" c.styles.fullCoverage
  checkPositiveUnit "anti_patterns.coupling_percentile" c.antiPatterns.couplingPercentile
  checkUnit "intents.gap_threshold" c.intents.gapThreshold
  c.weightGroups.forM fun (group, weights) => checkWeights group weights
  let _ ← c.classifier

end Config

end ArchAudit
