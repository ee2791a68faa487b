-- SUMMARY: The style, or blend of styles, that describes a system.
import ArchAudit.Style.Detect

/-!
# Classification

Only styles with a confidence above the threshold count. If the second best comes
close to the best, all that come close form a hybrid.
-/

namespace ArchAudit

inductive Classification where
  | single (style : StyleKind)
  | hybrid (styles : List StyleKind)
  | undetermined
deriving DecidableEq, Repr

namespace Classification

/-- The styles that describe the system, strongest first. -/
def styles : Classification → List StyleKind
  | .single style => [style]
  | .hybrid styles => styles
  | .undetermined => []

variable {α : Type} [Scalar α]

/-- Greater confidence comes first; equal confidence goes by the order of styles. -/
def precedes (a b : StyleKind × α) : Bool :=
  match Scalar.totalCompare b.2 a.2 with
  | .lt => true
  | .gt => false
  | .eq => a.1.rank ≤ b.1.rank

/-- The styles above the threshold, strongest first. -/
def qualifying (config : StyleConfig α) (results : List (StyleResult α)) :
    List (StyleKind × α) :=
  ((results.filter fun r => config.confidenceThreshold < r.confidence).map fun r =>
    (r.style, r.confidence)).mergeSort precedes

/-- Decides between a single style and a hybrid. -/
def ofResults (config : StyleConfig α) (results : List (StyleResult α)) : Classification :=
  let ranked := qualifying config results
  match ranked with
  | [] => .undetermined
  | [(style, _)] => .single style
  | (top, best) :: (_, second) :: _ =>
    if best - second < config.hybridMargin then
      .hybrid ((ranked.filter fun r => best - r.2 < config.hybridMargin).map (·.1))
    else .single top

end Classification

end ArchAudit
