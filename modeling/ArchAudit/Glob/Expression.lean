-- SUMMARY: The regular expression of a glob pattern: its elements, its text and its nesting.
import ArchAudit.Glob.Pattern

/-!
# Expressions

A pattern stands for a regular expression over bytes. An expression is a row of
elements; `Glob.row` builds the row of a pattern. Expressions may not nest deeper
than `deepestNesting`.
-/

namespace ArchAudit.Glob

/-- One element of an expression. -/
inductive Element where
  | byte (b : UInt8)
  | anyByte
  /-- Any bytes. -/
  | anyBytes
  /-- The byte or nothing. -/
  | optional (b : UInt8)
  /-- One byte of the ranges, or one outside of them. -/
  | oneOf (negated : Bool) (ranges : List (UInt8 × UInt8))
  /-- One of the rows. -/
  | choice (rows : List (List Element))
deriving Repr

-- ---------------------------------------------------------------------------
-- Elements of patterns
-- ---------------------------------------------------------------------------

/-- The byte of a slash. -/
def slash : UInt8 := 0x2F

def charBytes (c : Char) : List UInt8 := String.utf8EncodeChar c

/-- The byte ranges of a character range. Ends that take several bytes contribute
    each of them: the range proper runs from the last byte of the first character
    to the first byte of the last. -/
def byteRanges (range : Char × Char) : List (UInt8 × UInt8) :=
  let single (b : UInt8) : UInt8 × UInt8 := (b, b)
  let first := charBytes range.1
  let last := charBytes range.2
  if range.1 = range.2 then first.map single
  else
    first.dropLast.map single ++ first.getLast?.toList.zip last.head?.toList ++
      last.tail.map single

mutual

/-- The elements of a part. A group without alternatives has none. -/
def Part.elements : Part → List Element
  | .literal c => (charBytes c).map .byte
  | .any => [.anyByte]
  | .star => [.anyBytes]
  | .leadingDirs => [.choice [[.optional slash], [.anyBytes, .byte slash]]]
  | .trailingDirs => [.byte slash, .anyBytes]
  | .middleDirs => [.choice [[.byte slash], [.byte slash, .anyBytes, .byte slash]]]
  | .oneOf negated ranges => [.oneOf negated (ranges.flatMap byteRanges)]
  | .alternatives branches =>
    match branchRows branches with
    | [] => []
    | rows => [.choice rows]

/-- The elements of parts in a row. -/
def rowElements : List Part → List Element
  | [] => []
  | p :: ps => p.elements ++ rowElements ps

/-- The rows of alternatives; one without elements is left out. -/
def branchRows : List (List Part) → List (List Element)
  | [] => []
  | b :: bs =>
    match rowElements b with
    | [] => branchRows bs
    | row => row :: branchRows bs

end

/-- The row of a pattern. One that consists of leading directories only stands for
    any bytes. -/
def row (g : Glob) : List Element :=
  match g.parts with
  | [.leadingDirs] => [.anyBytes]
  | parts => rowElements parts

-- ---------------------------------------------------------------------------
-- Text
-- ---------------------------------------------------------------------------

/-- A byte as it is written in an expression. -/
def byteText (b : UInt8) : String :=
  if 0x80 ≤ b then "\\x" ++ String.ofList (Nat.toDigits 16 b.toNat)
  else
    let c := Char.ofNat b.toNat
    if "\\.+*?()|[]\x7b\x7d^$#&-~".toList.contains c then "\\" ++ c.toString else c.toString

def rangeText (range : UInt8 × UInt8) : String :=
  if range.1 = range.2 then byteText range.1
  else byteText range.1 ++ "-" ++ byteText range.2

mutual

def Element.text : Element → String
  | .byte b => byteText b
  | .anyByte => "."
  | .anyBytes => ".*"
  | .optional b => byteText b ++ "?"
  | .oneOf negated ranges =>
    "[" ++ (if negated then "^" else "") ++ String.join (ranges.map rangeText) ++ "]"
  | .choice rows => "(?:" ++ "|".intercalate (rowTexts rows) ++ ")"

def rowText : List Element → String
  | [] => ""
  | e :: es => e.text ++ rowText es

def rowTexts : List (List Element) → List String
  | [] => []
  | r :: rs => rowText r :: rowTexts rs

end

/-- The expression of a pattern, which has to match a text from end to end. -/
def expressionText (g : Glob) : String := "(?-u)^" ++ rowText g.row ++ "$"

-- ---------------------------------------------------------------------------
-- Nesting
-- ---------------------------------------------------------------------------

/-- A row or a choice of several members is a level of its own. -/
def levelOf (members : Nat) : Nat := if 2 ≤ members then 1 else 0

mutual

/-- How many levels an element has. -/
def Element.nesting : Element → Nat
  | .byte _ => 0
  | .anyByte => 0
  | .anyBytes => 1
  | .optional _ => 1
  | .oneOf _ ranges => 1 + levelOf ranges.length
  | .choice rows => 1 + levelOf rows.length + rowsNesting rows

/-- The levels of the deepest element in a row. -/
def elementsNesting : List Element → Nat
  | [] => 0
  | e :: es => max e.nesting (elementsNesting es)

/-- The levels of the deepest row. -/
def rowsNesting : List (List Element) → Nat
  | [] => 0
  | r :: rs => max (levelOf r.length + elementsNesting r) (rowsNesting rs)

end

def deepestNesting : Nat := 250

/-- Whether the expression of a pattern nests too deep. The row of the pattern is a
    level, since its two ends belong to it. -/
def isTooDeep (g : Glob) : Bool := deepestNesting < 1 + elementsNesting g.row

end ArchAudit.Glob
