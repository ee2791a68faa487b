-- SUMMARY: JSON forms of violations, style results and classifications.
import ArchAudit.Json.Decode
import ArchAudit.Json.Value
import ArchAudit.Style.Classification
import ArchAudit.Violation.Basic

/-!
# Violations and styles in JSON

Style results hold their violations. A classification is an object whose `kind` tells which
other members it has. All members but the kind are read whole before the kind gives them a
meaning.
-/

namespace ArchAudit

open Json

namespace Violation

/-- The style is left out if there is none. -/
def toJson (v : Violation Float) : Value :=
  .object
    ([("id", .string v.id),
      ("kind", .ofNamed v.kind),
      ("severity", .float v.severity),
      ("band", .ofNamed v.band),
      ("participants", .strings v.participants),
      ("description", .string v.description)]
      ++ (v.style.map fun style => ("style", Value.ofNamed style)).toList)

def decode : Decoder (Violation Float) :=
  record "Violation" <|
    Violation.mk <$> field "id" string
      <*> field "kind" (choice Named.table)
      <*> field "severity" float
      <*> field "band" (choice Named.table)
      <*> field "participants" (list string)
      <*> field "description" string
      <*> fieldD "style" none (choice? Named.table)

end Violation

namespace StyleMetrics

def toJson (m : StyleMetrics Float) : Value :=
  .object
    [("role_coverage", .float m.roleCoverage),
     ("compliance_ratio", .float m.complianceRatio),
     ("classified_components", .natural m.classifiedComponents),
     ("in_scope_edges", .natural m.inScopeEdges),
     ("compliant_edges", .natural m.compliantEdges),
     ("violating_edges", .natural m.violatingEdges)]

def decode : Decoder (StyleMetrics Float) :=
  record "StyleMetrics" <|
    StyleMetrics.mk <$> field "role_coverage" float
      <*> field "compliance_ratio" float
      <*> field "classified_components" word
      <*> field "in_scope_edges" word
      <*> field "compliant_edges" word
      <*> field "violating_edges" word

end StyleMetrics

namespace StyleResult

def toJson (r : StyleResult Float) : Value :=
  .object
    [("style", .ofNamed r.style),
     ("confidence", .float r.confidence),
     ("role_assignment", .ofNameMap .ofNamed r.roleAssignment),
     ("violations", .array (r.violations.map Violation.toJson)),
     ("metrics", r.metrics.toJson),
     ("insufficient_data", .bool r.insufficientData)]

def decode : Decoder (StyleResult Float) :=
  record "StyleResult" <|
    StyleResult.mk <$> field "style" (choice Named.table)
      <*> field "confidence" float
      <*> field "role_assignment" (nameMap (choice Named.table))
      <*> field "violations" (list Violation.decode)
      <*> field "metrics" StyleMetrics.decode
      <*> field "insufficient_data" boolean

end StyleResult

-- ---------------------------------------------------------------------------
-- Classifications
-- ---------------------------------------------------------------------------

namespace Classification

def toJson : Classification → Value
  | .single style => .object [("kind", .string "single"), ("style", .ofNamed style)]
  | .hybrid styles =>
    .object [("kind", .string "hybrid"), ("styles", .array (styles.map Value.ofNamed))]
  | .undetermined => .object [("kind", .string "undetermined")]

/-- The forms of a classification. -/
inductive Form where
  | single
  | hybrid
  | undetermined
deriving DecidableEq, Repr

instance : Named Form where
  all := [.single, .hybrid, .undetermined]
  name
    | .single => "single"
    | .hybrid => "hybrid"
    | .undetermined => "undetermined"

def decodeForm : Decoder Form
  | .string (some name) => variant Named.table name
  | node => refuse "variant identifier" node

/-- Levels of nesting left inside a classification of a report. -/
def memberRoom : Nat := 125

/-- The form among the members of an object; the other members are read whole. -/
def findForm : Option Form → List (Option String × Node) → Except Fault (Option Form)
  | form, [] => .ok form
  | _, (none, _) :: _ => .error (.text .malformed)
  | form, (some key, node) :: members =>
    if key = "kind" then
      match form with
      | some _ => .error (.shape (.duplicateField "kind"))
      | none => do findForm (some (← decodeForm node)) members
    else do
      node.readWhole memberRoom
      findForm form members

def singleFields : Fields Classification :=
  Classification.single <$> field "style" (wholeChoice emptyUnit Named.table)

def hybridFields : Fields Classification :=
  Classification.hybrid <$> field "styles" (list (wholeChoice emptyUnit Named.table))

/-- The classification of a form, from the members of an object. -/
def ofMembers (form : Form) (members : List (Option String × Node)) :
    Except Fault Classification :=
  match form with
  | .single => singleFields.ofMembers members .closed
  | .hybrid => hybridFields.ofMembers members .closed
  | .undetermined => .ok .undetermined

/-- Refuses items beyond those that a form takes. -/
def refuseExtra (taken : Nat) (items : List Node) : Except Fault Unit :=
  if items.length ≤ taken then .ok ()
  else .error (.shape (.invalidLength items.length
    (toString taken ++ (if taken = 1 then " element" else " elements") ++ " in sequence")))

/-- The fields of a form as the items of a list. -/
def ofItems (fields : Fields Classification) (name : String) (items : List Node) :
    Except Fault Classification := do
  let (state, _) ← fields.readItems fields.names fields.start items
  let a ← fields.finish
    (fun _ => .shape (.invalidLength 0 (Fields.expectation name fields.names.length))) state
  refuseExtra fields.names.length items
  return a

/-- A classification is an object with a `kind`, or an array that starts with it. -/
def decode : Decoder Classification
  | .object members ending => do
    let form ← findForm none members
    ending.inObject Stop.read members.isEmpty
    match form with
    | none => throw (.shape (.missingField "kind"))
    | some form => ofMembers form members
  | .array [] ending => do
    ending.inArray
    throw (.shape (.missingField "kind"))
  | .array (first :: items) ending => do
    let form ← decodeForm first
    readItems memberRoom items
    ending.inArray
    match form with
    | .single => ofItems singleFields "struct variant Classification::Single" items
    | .hybrid => ofItems hybridFields "struct variant Classification::Hybrid" items
    | .undetermined =>
      refuseExtra 0 items
      return .undetermined
  | node => refuse "internally tagged enum Classification" node

end Classification

end ArchAudit
