-- SUMMARY: Which dependencies between roles a style allows.
import ArchAudit.Role.Basic
import ArchAudit.Text.Lowercase

/-!
# Dependency rules

A rule judges an edge by the roles of its ends, or, for services, by the services
they belong to as well.
-/

namespace ArchAudit

-- ---------------------------------------------------------------------------
-- Services
-- ---------------------------------------------------------------------------

/-- Directories whose subdirectories are services. -/
def serviceMarkers : List String :=
  ["services", "service", "svc", "apps", "microservices"]

/-- The service of a path: the directory right below the first service marker. -/
def serviceKey (path : String) : Option String :=
  let directories :=
    (((Text.split (· = '/') path).filter (!·.isEmpty)).dropLast).map Text.lowercase
  match directories.dropWhile (!serviceMarkers.contains ·) with
  | _ :: service :: _ => some service
  | _ => none

-- ---------------------------------------------------------------------------
-- Verdicts
-- ---------------------------------------------------------------------------

inductive Verdict (α : Type) where
  | allowed
  | violates (severity : α)
deriving DecidableEq, Repr

/-- One end of an edge as a rule sees it. -/
structure Endpoint where
  role : Role
  service : Option String
deriving DecidableEq, Repr

-- ---------------------------------------------------------------------------
-- Rules
-- ---------------------------------------------------------------------------

inductive EdgeRule where
  /-- Roles from top to bottom; an edge may lead one step down. -/
  | adjacentDownward (chain : List Role)
  /-- Roles from the outside inwards; an edge may lead inwards. -/
  | inward (chain : List Role)
  /-- Only the pairs listed are allowed; the forbidden ones weigh more than the rest. -/
  | pairs (allowed forbidden : List (Role × Role))
  /-- Anything goes within a service; between services an edge needs a gateway, and
      never leads to a data store. -/
  | serviceBoundary
deriving DecidableEq, Repr

namespace EdgeRule

variable {α : Type} [Scalar α]

/-- The place of a role in a chain. -/
def position? (chain : List Role) (role : Role) : Option Nat :=
  if role ∈ chain then some (chain.idxOf role) else none

def checkAdjacent (chain : List Role) (source target : Role) : Verdict α :=
  match position? chain source, position? chain target with
  | some a, some b =>
    if b = a + 1 then .allowed
    else if a < b then .violates 0.4
    else .violates 0.7
  | _, _ => .violates 0.7

def checkInward (chain : List Role) (source target : Role) : Verdict α :=
  match position? chain source, position? chain target with
  | some a, some b =>
    if a < b then .allowed else .violates (0.4 + 0.15 * ((a - b : Nat) : α))
  | _, _ => .violates 0.5

def checkPairs (allowed forbidden : List (Role × Role)) (source target : Role) : Verdict α :=
  if (source, target) ∈ allowed then .allowed
  else if (source, target) ∈ forbidden then .violates 0.8
  else .violates 0.4

def checkServices (source target : Endpoint) : Verdict α :=
  if source.service.isSome ∧ source.service = target.service then .allowed
  else if target.role = .dataStore then .violates 0.8
  else if source.role = .apiGateway ∨ target.role = .apiGateway then .allowed
  else if source.service.isNone ∧ target.service.isNone then .violates 0.3
  else .violates 0.6

/-- Judges an edge. Except between services, equal roles may always depend on each
    other. -/
def check (rule : EdgeRule) (source target : Endpoint) : Verdict α :=
  match rule with
  | .serviceBoundary => checkServices source target
  | .adjacentDownward chain =>
    if source.role = target.role then .allowed else checkAdjacent chain source.role target.role
  | .inward chain =>
    if source.role = target.role then .allowed else checkInward chain source.role target.role
  | .pairs allowed forbidden =>
    if source.role = target.role then .allowed
    else checkPairs allowed forbidden source.role target.role

/-- The rule in words. -/
def describe : EdgeRule → String
  | .adjacentDownward _ => "layers may only call the layer directly below"
  | .inward _ => "dependencies must point inward"
  | .pairs _ _ => "edge is not an allowed role pairing"
  | .serviceBoundary => "services must communicate through a gateway"

end EdgeRule

end ArchAudit
