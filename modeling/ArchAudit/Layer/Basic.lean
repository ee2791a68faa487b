-- SUMMARY: Architectural layers, their depth and their policy level.
import ArchAudit.Data.Names

/-!
# Layers

Layers run from the domain, innermost, to the presentation, outermost. For
dependency inversion they are ranked by how far they are from technical detail.
-/

namespace ArchAudit

inductive Layer where
  | domain
  | application
  | infrastructure
  | presentation
deriving DecidableEq, Repr

namespace Layer

instance : Named Layer where
  all := [.domain, .application, .infrastructure, .presentation]
  name
    | .domain => "domain"
    | .application => "application"
    | .infrastructure => "infrastructure"
    | .presentation => "presentation"

/-- How far outside the layer is. -/
def depth : Layer → Nat
  | .domain => 0
  | .application => 1
  | .infrastructure => 2
  | .presentation => 3

/-- How much policy, as opposed to detail, the layer holds. -/
def policyLevel : Layer → Nat
  | .domain => 3
  | .application => 2
  | .presentation => 1
  | .infrastructure => 0

/-- A layer must not depend on one further outside. -/
def violatesDependencyOn (a b : Layer) : Bool :=
  a.depth < b.depth

end Layer

end ArchAudit
