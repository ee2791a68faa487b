-- SUMMARY: The stages of an analysis, from records to a report.
import ArchAudit.AntiPattern.Detect
import ArchAudit.Analysis.Registry
import ArchAudit.Analysis.Report
import ArchAudit.Json.Fault

/-!
# Analysis

Stages run in order. A run can be called off; that takes effect before the next
stage. `Run` carries whether it has been called off along with the outcome.
-/

namespace ArchAudit

-- ---------------------------------------------------------------------------
-- Errors
-- ---------------------------------------------------------------------------

inductive Stage where
  | load
  | graph
  | intents
  | styles
  | antiPatterns
  | recommendations
deriving DecidableEq, Repr

instance : Named Stage where
  all := [.load, .graph, .intents, .styles, .antiPatterns, .recommendations]
  name
    | .load => "load"
    | .graph => "graph"
    | .intents => "intents"
    | .styles => "styles"
    | .antiPatterns => "anti-patterns"
    | .recommendations => "recommendations"

/-- Why there are no usable records. -/
inductive InputError where
  | malformed (fault : Json.Fault)
  | record (error : RecordError)
deriving DecidableEq, Repr

/-- Why an analysis has no report. -/
inductive AnalysisError where
  | input (error : InputError)
  | cancelled (stage : Stage)
deriving DecidableEq, Repr

def cancelledMessage (stage : Stage) : String :=
  "analysis cancelled before stage " ++ inQuotes (Named.name stage)

-- ---------------------------------------------------------------------------
-- Runs
-- ---------------------------------------------------------------------------

/-- An outcome, and whether the run has been called off by then. -/
structure Run (β : Type) where
  outcome : Except AnalysisError β
  cancelled : Bool

namespace Run

/-- Enters a stage unless the run has been called off. -/
def enter {β : Type} (stage : Stage) (cancelled : Bool) (continuation : Unit → Run β) : Run β :=
  if cancelled then ⟨.error (.cancelled stage), true⟩ else continuation ()

end Run

-- ---------------------------------------------------------------------------
-- Pipeline
-- ---------------------------------------------------------------------------

/-- An accepted configuration with its detectors. -/
structure Pipeline (α : Type) where
  config : Config α
  registry : Registry α

namespace Pipeline

variable {α : Type} [Scalar α]

/-- The pipeline of the built-in detectors. -/
def standard (config : Config α) : Except (ConfigError α) (Pipeline α) := do
  config.validate
  return ⟨config, ← Registry.builtin config⟩

/-- A pipeline of given detectors. -/
def withRegistry (config : Config α) (registry : Registry α) :
    Except (ConfigError α) (Pipeline α) := do
  config.validate
  return ⟨config, registry⟩

/-- The findings of the report: anti-patterns, then the violations of the styles
    that describe the system. -/
def findings (p : Pipeline α) (g : Graph α) (styles : List (StyleResult α))
    (classification : Classification) : List (Violation α) :=
  AntiPattern.detect p.config.antiPatterns g styles classification
    ++ (styles.filter (classification.styles.contains ·.style)).flatMap (·.violations)

/-- The report of a built graph with its detection results. -/
def report (p : Pipeline α) (build : GraphBuild α) (intents : List (IntentResult α))
    (styles : List (StyleResult α)) : Report α :=
  let classification := Classification.ofResults p.config.styles styles
  let violations := p.findings build.graph styles classification
  { graph := build.graph
    intents
    styles
    violations
    recommendations := Recommendation.recommend p.config.intents.gapThreshold violations intents
    overallHealthScore := overallHealth intents p.config.intents.healthWeights
    classification
    diagnostics := build.diagnostics }

/-- Analyzes records in a run that may have been called off already. -/
def run (p : Pipeline α) (records : List ComponentRecord) (cancelled : Bool) :
    Run (Report α) :=
  Run.enter .graph cancelled fun _ =>
  match (GraphBuild.ofRecords records : Except RecordError (GraphBuild α)) with
  | .error e => ⟨.error (.input (.record e)), cancelled⟩
  | .ok build =>
    Run.enter .intents cancelled fun _ =>
    let intents := p.registry.intents.map fun d => d.detect build.graph
    let cancelled := cancelled || p.registry.intents.any (·.cancels)
    Run.enter .styles cancelled fun _ =>
    let styles := p.registry.styles.map fun d => d.detect build.graph intents
    let cancelled := cancelled || p.registry.styles.any (·.cancels)
    Run.enter .antiPatterns cancelled fun _ =>
    Run.enter .recommendations cancelled fun _ =>
    ⟨.ok (p.report build intents styles), cancelled⟩

/-- Analyzes records in a run that nobody calls off. -/
def analyze (p : Pipeline α) (records : List ComponentRecord) :
    Except AnalysisError (Report α) :=
  (p.run records false).outcome

/-- Loads records and analyzes them. Loading may call the run off. -/
def runSource (p : Pipeline α) (load : Except InputError (List ComponentRecord))
    (cancelsOnLoad cancelled : Bool) : Run (Report α) :=
  Run.enter .load cancelled fun _ =>
  match load with
  | .error e => ⟨.error (.input e), cancelled || cancelsOnLoad⟩
  | .ok records => p.run records (cancelled || cancelsOnLoad)

end Pipeline

end ArchAudit
