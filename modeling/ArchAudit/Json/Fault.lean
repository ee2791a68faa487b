-- SUMMARY: What can go wrong when JSON text is decoded, and the wording of each case.
import ArchAudit.Number.Decimal
import ArchAudit.Text.Quoted

/-!
# Decoding faults

Text may end early, be malformed, or be well-formed JSON of the wrong shape. Only
a wrong shape has a message.
-/

namespace ArchAudit.Json

/-- Why text is not JSON. -/
inductive Reason where
  /-- The text ends where more is due. -/
  | ended
  | malformed
deriving DecidableEq, Repr

/-- What stands where something else was expected. -/
inductive Found where
  | null
  | boolean (b : Bool)
  | integer (i : Int)
  | floating (x : Float)
  | string (s : String)
  | sequence
  | map
deriving DecidableEq, Repr

/-- How well-formed JSON fails to have the expected shape. -/
inductive Mismatch where
  | missingField (name : String)
  | duplicateField (name : String)
  | invalidType (found : Found) (expected : String)
  | invalidValue (found : Found) (expected : String)
  | unknownVariant (name : String) (known : List String)
  | invalidLength (length : Nat) (expected : String)
  | noAlternative (typeName : String)
deriving DecidableEq, Repr

/-- The first problem met when text is read from left to right. -/
inductive Fault where
  | text (reason : Reason)
  | shape (mismatch : Mismatch)
deriving DecidableEq, Repr

-- ---------------------------------------------------------------------------
-- Wording
-- ---------------------------------------------------------------------------

def inTicks (s : String) : String := "`" ++ s ++ "`"

def Found.text : Found → String
  | .null => "null"
  | .boolean b => "boolean " ++ inTicks (if b then "true" else "false")
  | .integer i => "integer " ++ inTicks (toString i)
  | .floating x => "floating point " ++ inTicks (Layout.interchange.text x)
  | .string s => "string " ++ Text.quoted s
  | .sequence => "sequence"
  | .map => "map"

/-- The alternatives in prose. -/
def alternatives : List String → String
  | [] => "there are no variants"
  | [a] => "expected " ++ inTicks a
  | [a, b] => "expected " ++ inTicks a ++ " or " ++ inTicks b
  | names => "expected one of " ++ ", ".intercalate (names.map inTicks)

def Mismatch.message : Mismatch → String
  | .missingField name => "missing field " ++ inTicks name
  | .duplicateField name => "duplicate field " ++ inTicks name
  | .invalidType found expected => "invalid type: " ++ found.text ++ ", expected " ++ expected
  | .invalidValue found expected => "invalid value: " ++ found.text ++ ", expected " ++ expected
  | .unknownVariant name known => "unknown variant " ++ inTicks name ++ ", " ++ alternatives known
  | .invalidLength length expected =>
    "invalid length " ++ toString length ++ ", expected " ++ expected
  | .noAlternative typeName =>
    "data did not match any variant of untagged enum " ++ typeName

end ArchAudit.Json
