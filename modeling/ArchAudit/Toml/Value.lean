-- SUMMARY: Values of TOML documents and how they are taken apart.
import ArchAudit.Number.Decimal

/-!
# TOML values

Dates and times are checked when they are read, but nothing here needs their
content. A record may be given as a table or as the array of its fields.
-/

namespace ArchAudit.Toml

inductive Value where
  | string (s : String)
  | integer (i : Int)
  | float (x : Float)
  | boolean (b : Bool)
  | dateTime
  | array (items : List Value)
  | table (entries : List (String × Value))
deriving Repr

namespace Value

def string? : Value → Option String
  | .string s => some s
  | _ => none

/-- A number; an integer has to fit a machine word. -/
def float? : Value → Option Float
  | .float x => some x
  | .integer i => if -signBit ≤ i ∧ i ≤ greatestWord then some (Float.ofInt i) else none
  | _ => none

/-- A natural number that fits a machine word. -/
def word? : Value → Option Nat
  | .integer i => if 0 ≤ i ∧ i ≤ greatestWord then some i.toNat else none
  | _ => none

def list? {α : Type} (decode : Value → Option α) : Value → Option (List α)
  | .array items => items.mapM decode
  | _ => none

/-- The values of the named fields. -/
def fields? (names : List String) : Value → Option (List (String × Value))
  | .table entries => some entries
  | .array items => some (names.zip items)
  | .dateTime => some []
  | _ => none

end Value

/-- A field of a record, or what stands for it if it is left out. -/
def fieldD {α : Type} (fields : List (String × Value)) (name : String) (missing : α)
    (decode : Value → Option α) : Option α :=
  match fields.lookup name with
  | none => some missing
  | some value => decode value

end ArchAudit.Toml
