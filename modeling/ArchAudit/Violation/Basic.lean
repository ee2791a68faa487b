-- SUMMARY: Violations, their kinds and their severity.
import ArchAudit.Component.Basic
import ArchAudit.Style.Kind
import ArchAudit.Text.Lowercase

/-!
# Violations

A violation names the components that take part in it. Its severity lies between
zero and one and falls into one of three bands.
-/

namespace ArchAudit

-- ---------------------------------------------------------------------------
-- Severity bands
-- ---------------------------------------------------------------------------

inductive SeverityBand where
  | minor
  | moderate
  | severe
deriving DecidableEq, Repr

namespace SeverityBand

instance : Named SeverityBand where
  all := [.minor, .moderate, .severe]
  name
    | .minor => "minor"
    | .moderate => "moderate"
    | .severe => "severe"

def rank : SeverityBand → Nat
  | .minor => 0
  | .moderate => 1
  | .severe => 2

/-- The band of a severity. -/
def ofScore {α : Type} [Scalar α] (score : α) : SeverityBand :=
  if (0.6 : α) ≤ score then .severe
  else if (0.3 : α) ≤ score then .moderate
  else .minor

/-- The band of a name in any case. -/
def ofText? (text : String) : Option SeverityBand :=
  (Named.table : List (String × SeverityBand)).lookup (Text.lowercase text)

/-- What is said of a text that names no band. -/
def unknownMessage (text : String) : String :=
  "unknown severity band: " ++ text

def max (a b : SeverityBand) : SeverityBand :=
  if a.rank < b.rank then b else a

end SeverityBand

-- ---------------------------------------------------------------------------
-- Violations
-- ---------------------------------------------------------------------------

inductive ViolationKind where
  | cycle
  | tightCoupling
  | bidirectionalCoupling
  | godComponent
  | erosion
  | layerViolation
deriving DecidableEq, Repr

instance : Named ViolationKind where
  all := [.cycle, .tightCoupling, .bidirectionalCoupling, .godComponent, .erosion, .layerViolation]
  name
    | .cycle => "cycle"
    | .tightCoupling => "tight-coupling"
    | .bidirectionalCoupling => "bidirectional-coupling"
    | .godComponent => "god-component"
    | .erosion => "erosion"
    | .layerViolation => "layer-violation"

structure Violation (α : Type) where
  id : String
  kind : ViolationKind
  severity : α
  band : SeverityBand
  participants : List ComponentId
  description : String
  /-- The style whose rules are violated. -/
  style : Option StyleKind
deriving DecidableEq, Repr

namespace Violation

variable {α : Type} [Scalar α]

/-- The severity that is recorded: clipped to the unit interval, and zero if there
    is no finite one. -/
def recordedSeverity (severity : α) : α :=
  if Scalar.isFinite severity then Scalar.clampUnit severity else 0.0

/-- A violation with the band of its severity. -/
def make (id : String) (kind : ViolationKind) (severity : α) (participants : List ComponentId)
    (description : String) (style : Option StyleKind) : Violation α where
  id := id
  kind := kind
  severity := recordedSeverity severity
  band := .ofScore (recordedSeverity severity)
  participants := participants
  description := description
  style := style

end Violation

end ArchAudit
