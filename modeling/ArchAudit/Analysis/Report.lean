-- SUMMARY: The report of an analysis.
import ArchAudit.Analysis.Recommendation
import ArchAudit.Graph.Build
import ArchAudit.Style.Classification

namespace ArchAudit

/-- Everything that one analysis found. -/
structure Report (α : Type) where
  graph : Graph α
  intents : List (IntentResult α)
  styles : List (StyleResult α)
  violations : List (Violation α)
  recommendations : List Recommendation
  overallHealthScore : α
  classification : Classification
  diagnostics : List Diagnostic
deriving DecidableEq, Repr

namespace Report

variable {α : Type}

def intent? (r : Report α) (kind : IntentKind) : Option (IntentResult α) :=
  IntentResult.ofKind? r.intents kind

def style? (r : Report α) (kind : StyleKind) : Option (StyleResult α) :=
  r.styles.find? (·.style = kind)

def violationsOf (r : Report α) (kind : ViolationKind) : List (Violation α) :=
  r.violations.filter (·.kind = kind)

end Report

end ArchAudit
