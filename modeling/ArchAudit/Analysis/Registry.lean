-- SUMMARY: The detectors that an analysis runs, one per kind.
import ArchAudit.Config.Validate
import ArchAudit.Intent.Hiding
import ArchAudit.Intent.Inversion
import ArchAudit.Style.Detect

/-!
# Detectors

A registry holds at most one detector per intent and per style, in the order of
their kinds. Adding a detector replaces the one of its kind.
-/

namespace ArchAudit

/-- Scores an intent. -/
structure IntentDetector (α : Type) where
  kind : IntentKind
  detect : Graph α → IntentResult α
  /-- Whether running the detector calls the whole analysis off. -/
  cancels : Bool

/-- Evaluates a style. -/
structure StyleDetector (α : Type) where
  style : StyleKind
  detect : Graph α → List (IntentResult α) → StyleResult α
  /-- Whether running the detector calls the whole analysis off. -/
  cancels : Bool

/-- The detectors of an analysis. -/
structure Registry (α : Type) where
  intents : List (IntentDetector α)
  styles : List (StyleDetector α)

namespace IntentDetector

variable {α : Type} [Scalar α]

def separation (k : LayerClassifier) (weights : SeparationWeights α) : IntentDetector α :=
  ⟨.separationOfConcerns, Separation.detect k weights, false⟩

def encapsulation (weights : HidingWeights α) : IntentDetector α :=
  ⟨.informationHiding, Hiding.detect weights, false⟩

def inversion (k : LayerClassifier) (weights : InversionWeights α) : IntentDetector α :=
  ⟨.dependencyInversion, Inversion.detect k weights, false⟩

end IntentDetector

/-- Evaluates a style by its table. -/
def StyleDetector.ofTable {α : Type} [Scalar α] (config : StyleConfig α) (t : StyleTable) :
    StyleDetector α :=
  ⟨t.style, t.detect config, false⟩

namespace Registry

variable {α : Type}

def empty : Registry α := ⟨[], []⟩

/-- Adds a detector, replacing the one of its kind. -/
def withIntent (r : Registry α) (d : IntentDetector α) : Registry α :=
  { r with
    intents := (r.intents.filter (·.kind ≠ d.kind) ++ [d]).mergeSort fun a b =>
      a.kind.rank ≤ b.kind.rank }

/-- Adds a detector, replacing the one of its style. -/
def withStyle (r : Registry α) (d : StyleDetector α) : Registry α :=
  { r with
    styles := (r.styles.filter (·.style ≠ d.style) ++ [d]).mergeSort fun a b =>
      a.style.rank ≤ b.style.rank }

def intentKinds (r : Registry α) : List IntentKind :=
  r.intents.map (·.kind)

def styleKinds (r : Registry α) : List StyleKind :=
  r.styles.map (·.style)

variable [Scalar α]

/-- The three intents and five styles. -/
def builtin (config : Config α) : Except (ConfigError α) (Registry α) := do
  let k ← config.classifier
  let intents := config.intents
  let registry := ((empty.withIntent (.separation k intents.separationWeights)).withIntent
    (.encapsulation intents.hidingWeights)).withIntent (.inversion k intents.inversionWeights)
  return (StyleTable.builtin.map (StyleDetector.ofTable config.styles)).foldl withStyle registry

end Registry

end ArchAudit
