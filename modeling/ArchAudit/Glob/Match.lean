-- SUMMARY: Which paths a glob pattern matches.
import ArchAudit.Glob.Expression
import ArchAudit.Glob.Form
import ArchAudit.Text.Basic

/-!
# Matching

A pattern matches the bytes of a path as a whole. Matching marks places of the text:
those where what has been read of the expression may end. Each element moves all
marks at once, so that the work is bounded by the length of the expression times the
length of the text.
-/

namespace ArchAudit.Glob

abbrev Bytes := List UInt8

-- ---------------------------------------------------------------------------
-- Marks
-- ---------------------------------------------------------------------------

/-- A mark for each place of a text: before each of its bytes, and at its end. -/
abbrev Marks := List Bool

/-- The start of the text is marked. -/
def Marks.start (text : Bytes) : Marks := true :: text.map fun _ => false

/-- No place is marked. -/
def Marks.clear (marks : Marks) : Marks := marks.map fun _ => false

/-- Moves each mark over one byte, and drops those before a byte of another kind. -/
def Marks.step (accepts : UInt8 → Bool) (text : Bytes) (marks : Marks) : Marks :=
  false :: List.zipWith (fun b m => m && accepts b) text marks

/-- Marks all places from the first marked one on. -/
def Marks.spread : Marks → Marks
  | [] => []
  | true :: marks => true :: marks.map fun _ => true
  | false :: marks => false :: spread marks

/-- Places marked on either side. -/
def Marks.union (l r : Marks) : Marks := List.zipWith (· || ·) l r

-- ---------------------------------------------------------------------------
-- Elements
-- ---------------------------------------------------------------------------

def inRange (b : UInt8) (range : UInt8 × UInt8) : Bool := range.1 ≤ b && b ≤ range.2

mutual

/-- The places where an element may end that starts at a marked place. -/
def Element.advance (text : Bytes) (marks : Marks) : Element → Marks
  | .byte b => marks.step (· = b) text
  | .anyByte => marks.step (fun _ => true) text
  | .anyBytes => marks.spread
  | .optional b => marks.union (marks.step (· = b) text)
  | .oneOf negated ranges => marks.step (fun b => ranges.any (inRange b) != negated) text
  | .choice rows => advanceRows text marks rows

/-- The places where a row may end. -/
def advanceRow (text : Bytes) (marks : Marks) : List Element → Marks
  | [] => marks
  | e :: es => advanceRow text (e.advance text marks) es

/-- The places where one of the rows may end. -/
def advanceRows (text : Bytes) (marks : Marks) : List (List Element) → Marks
  | [] => marks.clear
  | r :: rs => (advanceRow text marks r).union (advanceRows text marks rs)

end

/-- Whether the row matches the whole text. -/
def rowMatches (row : List Element) (text : Bytes) : Bool :=
  (advanceRow text (Marks.start text) row).getLast? == some true

-- ---------------------------------------------------------------------------
-- Paths
-- ---------------------------------------------------------------------------

/-- A path that leads to a parent directory has no file name. -/
def lacksFileName (path : String) : Bool :=
  (Text.split (· = '/') path).getLast? == some ".."

/-- Whether the pattern matches the path. -/
def isMatch (g : Glob) (path : String) : Bool :=
  !(g.form.usesFileName && lacksFileName path) && rowMatches g.row (Text.utf8 path)

end ArchAudit.Glob
