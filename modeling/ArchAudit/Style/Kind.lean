-- SUMMARY: The architectural styles.
import ArchAudit.Data.Names

namespace ArchAudit

inductive StyleKind where
  | layered
  | hexagonal
  | clean
  | microservices
  | eventDriven
deriving DecidableEq, Repr

namespace StyleKind

instance : Named StyleKind where
  all := [.layered, .hexagonal, .clean, .microservices, .eventDriven]
  name
    | .layered => "layered"
    | .hexagonal => "hexagonal"
    | .clean => "clean"
    | .microservices => "microservices"
    | .eventDriven => "event-driven"

/-- The place of the style in their order. -/
def rank : StyleKind → Nat
  | .layered => 0
  | .hexagonal => 1
  | .clean => 2
  | .microservices => 3
  | .eventDriven => 4

end StyleKind

end ArchAudit
