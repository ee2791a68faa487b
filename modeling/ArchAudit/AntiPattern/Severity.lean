-- SUMMARY: How severe each structural defect is.
import ArchAudit.Config.Basic
import ArchAudit.Graph.Cycle

/-!
# Severities

Each formula grows with the size of the defect and stays within the unit interval.
`nearestRank` is the percentile against which coupling is compared.
-/

namespace ArchAudit

variable {α : Type} [Scalar α]

/-- Grows with the members of a cycle and the references between them. -/
def CycleGroup.severity (c : CycleGroup) : α :=
  let x : α := 0.25 * (c.members.length : α) + 0.05 * (c.internalWeight : α)
  x / (1.0 + x)

/-- The value at the least rank that covers the share `p` of all values; zero if
    there are none. -/
def nearestRank (values : List Nat) (p : α) : Nat :=
  let sorted := values.mergeSort
  let rank := Scalar.ceilNat (p * (values.length : α))
  sorted.getD (Nat.min (Nat.max rank 1) values.length - 1) 0

/-- How far a value exceeds a limit, as a share of the value. -/
def excess (value limit : Nat) : α :=
  1.0 - (limit : α) / (value : α)

/-- Severity added per unit of betweenness. -/
def bottleneckWeight : α := 0.3

/-- Grows with the excess of coupling and with betweenness. -/
def couplingSeverity (baseline degree : Nat) (betweenness : α) : α :=
  Scalar.clamp 0.05 1.0 (excess degree baseline + bottleneckWeight * betweenness)

/-- Grows with the number of references between two components. -/
def mutualSeverity (weight : Nat) : α :=
  let x : α := (weight : α)
  0.3 + 0.4 * x / (x + 4.0)

/-- Grows with the mean excess over the three limits. -/
def godSeverity (limits : GodComponentLimits) (c : Component α) : α :=
  let mean : α :=
    (excess c.loc limits.loc + excess c.metrics.efferent limits.efferent
      + excess c.exportedSymbols.size limits.exportedSymbols) / 3.0
  0.3 + 0.7 * mean

end ArchAudit
