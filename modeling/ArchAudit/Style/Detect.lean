-- SUMMARY: How well a graph follows an architectural style.
import ArchAudit.Config.Basic
import ArchAudit.Intent.Basic
import ArchAudit.Style.Table
import ArchAudit.Violation.Basic

/-!
# Style detection

Components are given roles; each ordered pair of distinct components with roles
that an edge joins is judged once. The confidence in the style is the share of
allowed pairs, lowered if too few components have a role.
-/

namespace ArchAudit

structure StyleMetrics (α : Type) where
  /-- The share of components that have a role. -/
  roleCoverage : α
  /-- The share of judged pairs that are allowed, one half if there are none. -/
  complianceRatio : α
  classifiedComponents : Nat
  inScopeEdges : Nat
  compliantEdges : Nat
  violatingEdges : Nat
deriving DecidableEq, Repr

structure StyleResult (α : Type) where
  style : StyleKind
  confidence : α
  roleAssignment : NameMap Role
  violations : List (Violation α)
  metrics : StyleMetrics α
  insufficientData : Bool
deriving DecidableEq, Repr

/-- The result for a graph that is too small to say anything. -/
def StyleResult.empty {α : Type} [Scalar α] (style : StyleKind) : StyleResult α where
  style := style
  confidence := 0.0
  roleAssignment := .empty
  violations := []
  metrics := ⟨0.0, 0.5, 0, 0, 0, 0⟩
  insufficientData := true

namespace StyleTable

variable {α : Type} [Scalar α]

-- ---------------------------------------------------------------------------
-- Roles
-- ---------------------------------------------------------------------------

/-- What is known of a component beyond its node. -/
def signals (intents : List (IntentResult α)) (c : Component α) : RoleSignals where
  wellEncapsulated :=
    (IntentResult.ofKind? intents .informationHiding).any (·.supports c.id)
  inService := (serviceKey c.filePath).isSome

/-- The roles of the components that have one. -/
def assignRoles (t : StyleTable) (g : Graph α) (intents : List (IntentResult α)) :
    NameMap Role :=
  .ofList (g.components.filterMap fun c =>
    (classifyRole t.roles c (signals intents c)).map fun (role, _) => (c.id, role))

/-- How a rule sees a component. -/
def endpoint? (g : Graph α) (roles : NameMap Role) (id : ComponentId) : Option Endpoint :=
  (roles.get? id).map fun role =>
    { role, service := (g.component? id).bind fun c => serviceKey c.filePath }

-- ---------------------------------------------------------------------------
-- Judgement
-- ---------------------------------------------------------------------------

/-- A pair of components with roles that an edge joins. -/
structure Judged (α : Type) where
  source : ComponentId
  target : ComponentId
  sourceRole : Role
  targetRole : Role
  verdict : Verdict α
deriving DecidableEq, Repr

/-- Judges every pair both of whose components have a role. -/
def judge (t : StyleTable) (g : Graph α) (roles : NameMap Role) : List (Judged α) :=
  g.arcs.filterMap fun (source, target) => do
    let a ← endpoint? g roles source
    let b ← endpoint? g roles target
    return ⟨source, target, a.role, b.role, t.rule.check a b⟩

/-- The violation of a pair that the rule rejects. -/
def violation (t : StyleTable) (number : Nat) (j : Judged α) (severity : α) : Violation α :=
  .make (Named.name t.style ++ "-layer-violation-" ++ toString number) .layerViolation severity
    [j.source, j.target]
    (j.source ++ " (" ++ Named.name j.sourceRole ++ ") depends on " ++ j.target ++ " ("
      ++ Named.name j.targetRole ++ "): " ++ t.rule.describe)
    (some t.style)

/-- The rejected pairs with their severities. -/
def rejected (judged : List (Judged α)) : List (Judged α × α) :=
  judged.filterMap fun j =>
    match j.verdict with
    | .allowed => none
    | .violates severity => some (j, severity)

/-- The violations, numbered from one. -/
def violations (t : StyleTable) (judged : List (Judged α)) : List (Violation α) :=
  (rejected judged).mapIdx fun i (j, severity) => t.violation (i + 1) j severity

-- ---------------------------------------------------------------------------
-- Confidence
-- ---------------------------------------------------------------------------

def complianceRatio (compliant inScope : Nat) : α :=
  if inScope = 0 then 0.5 else (compliant : α) / (inScope : α)

/-- Compliance, scaled down while coverage is not full; zero without enough
    classified components or without pairs to judge. -/
def confidence (config : StyleConfig α) (classified inScope compliant : Nat) (coverage : α) :
    α :=
  if classified < config.minClassifiedComponents ∨ inScope = 0 then 0.0
  else
    Scalar.clampUnit
      (complianceRatio compliant inScope * Scalar.least (coverage / config.fullCoverage) 1.0)

/-- Evaluates the style on a graph. -/
def detect (t : StyleTable) (config : StyleConfig α) (g : Graph α)
    (intents : List (IntentResult α)) : StyleResult α :=
  if g.size < 2 then .empty t.style
  else
    let roles := t.assignRoles g intents
    let judged := t.judge g roles
    let violations := t.violations judged
    let inScope := judged.length
    let compliant := (judged.filter (·.verdict matches .allowed)).length
    let coverage := (roles.size : α) / (g.size : α)
    { style := t.style
      confidence := confidence config roles.size inScope compliant coverage
      roleAssignment := roles
      violations
      metrics :=
        { roleCoverage := coverage
          complianceRatio := complianceRatio compliant inScope
          classifiedComponents := roles.size
          inScopeEdges := inScope
          compliantEdges := compliant
          violatingEdges := violations.length }
      insufficientData := inScope = 0 }

end StyleTable

end ArchAudit
