-- SUMMARY: Finding cycles, tight and mutual coupling, oversized components and eroded styles.
import ArchAudit.AntiPattern.Severity
import ArchAudit.Style.Classification

/-!
# Anti-patterns

Each kind of finding is numbered on its own, from one.
-/

namespace ArchAudit

namespace AntiPattern

variable {α : Type} [Scalar α]

/-- The id of the `index`-th finding of a kind, counted from zero. -/
def findingId (kind : ViolationKind) (index : Nat) : String :=
  Named.name kind ++ "-" ++ toString (index + 1)

-- ---------------------------------------------------------------------------
-- Cycles
-- ---------------------------------------------------------------------------

def cycleDescription (c : CycleGroup) : String :=
  match c.members with
  | [only] => only ++ " depends on itself"
  | members =>
    "dependency cycle through " ++ toString members.length ++ " components: "
      ++ ", ".intercalate members

def cycles (g : Graph α) : List (Violation α) :=
  g.cycles.mapIdx fun i c =>
    .make (findingId .cycle i) .cycle c.severity c.members (cycleDescription c) none

-- ---------------------------------------------------------------------------
-- Coupling
-- ---------------------------------------------------------------------------

/-- The coupling that the configured share of components does not exceed. -/
def couplingReference (config : AntiPatternConfig α) (g : Graph α) : Nat :=
  nearestRank (g.components.map (·.metrics.totalCoupling)) config.couplingPercentile

def isTightlyCoupled (config : AntiPatternConfig α) (reference : Nat) (c : Component α) : Bool :=
  let degree := c.metrics.totalCoupling
  (reference < degree && config.couplingFloor ≤ degree) || config.couplingCap < degree

def couplingDescription (config : AntiPatternConfig α) (reference : Nat) (c : Component α) :
    String :=
  let m := c.metrics
  let betweenness := m.betweennessCentrality
  c.id ++ " has " ++ toString m.totalCoupling ++ " dependencies (" ++ toString m.afferent
    ++ " in, " ++ toString m.efferent ++ " out); the "
    ++ Scalar.fixedPlaces (config.couplingPercentile * 100.0) 0 ++ "th percentile is "
    ++ toString reference
    ++ (if (0.0 : α) < betweenness then
          "; it lies on " ++ Scalar.fixedPlaces (betweenness * 100.0) 0 ++ "% of shortest paths"
        else "")

def tightCoupling (config : AntiPatternConfig α) (g : Graph α) : List (Violation α) :=
  let reference := couplingReference config g
  (g.components.filter (isTightlyCoupled config reference)).mapIdx fun i c =>
    .make (findingId .tightCoupling i) .tightCoupling
      (couplingSeverity (Nat.min reference config.couplingCap) c.metrics.totalCoupling
        c.metrics.betweennessCentrality)
      [c.id] (couplingDescription config reference c) none

/-- The pairs of components that depend on each other, lower id first, ascending. -/
def mutualPairs (g : Graph α) : List (ComponentId × ComponentId) :=
  g.arcs.filter fun (a, b) => decide (a < b) && g.hasEdge b a

def bidirectionalCoupling (g : Graph α) : List (Violation α) :=
  (mutualPairs g).mapIdx fun i (a, b) =>
    let weight := g.weightBetween a b + g.weightBetween b a
    .make (findingId .bidirectionalCoupling i) .bidirectionalCoupling (mutualSeverity weight)
      [a, b]
      (a ++ " and " ++ b ++ " depend on each other (" ++ toString weight ++ " references)") none

-- ---------------------------------------------------------------------------
-- Oversized components
-- ---------------------------------------------------------------------------

def isGodComponent (limits : GodComponentLimits) (c : Component α) : Bool :=
  limits.loc < c.loc && limits.efferent < c.metrics.efferent
    && limits.exportedSymbols < c.exportedSymbols.size

def godDescription (c : Component α) : String :=
  c.id ++ " has " ++ toString c.loc ++ " lines, " ++ toString c.metrics.efferent
    ++ " outgoing dependencies and " ++ toString c.exportedSymbols.size ++ " exported symbols"

def godComponents (config : AntiPatternConfig α) (g : Graph α) : List (Violation α) :=
  (g.components.filter (isGodComponent config.godComponent)).mapIdx fun i c =>
    .make (findingId .godComponent i) .godComponent (godSeverity config.godComponent c) [c.id]
      (godDescription c) none

-- ---------------------------------------------------------------------------
-- Erosion
-- ---------------------------------------------------------------------------

/-- The results of the styles that describe the system and that some pair violates. -/
def eroded (styles : List (StyleResult α)) (classification : Classification) :
    List (StyleResult α) :=
  (classification.styles.filterMap fun kind => styles.find? (·.style = kind)).filter fun r =>
    0 < r.metrics.violatingEdges && 0 < r.metrics.inScopeEdges

def erosionDescription (r : StyleResult α) : String :=
  toString r.metrics.violatingEdges ++ " of " ++ toString r.metrics.inScopeEdges
    ++ " classified dependencies break the " ++ Named.name r.style ++ " style"

def erosion (styles : List (StyleResult α)) (classification : Classification) :
    List (Violation α) :=
  (eroded styles classification).mapIdx fun i r =>
    .make (findingId .erosion i) .erosion
      ((r.metrics.violatingEdges : α) / (r.metrics.inScopeEdges : α))
      (ascendingNames (r.violations.flatMap (·.participants))) (erosionDescription r)
      (some r.style)

/-- All findings, kind by kind. -/
def detect (config : AntiPatternConfig α) (g : Graph α) (styles : List (StyleResult α))
    (classification : Classification) : List (Violation α) :=
  cycles g ++ tightCoupling config g ++ bidirectionalCoupling g ++ godComponents config g
    ++ erosion styles classification

end AntiPattern

end ArchAudit
