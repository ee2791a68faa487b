-- SUMMARY: Character classes, white space, trimming and splitting.

/-!
# Characters and pieces of text

A class of characters is given by ranges of code points. `isBlank` is the property
White_Space; `trim` drops such characters at both ends. `splitChars` cuts a text at every
separator and keeps empty pieces, so joining the pieces gives the text back.
-/

namespace ArchAudit.Text

-- ---------------------------------------------------------------------------
-- Classes of characters
-- ---------------------------------------------------------------------------

/-- The code points from the first to the second, both included. -/
abbrev Span := Nat × Nat

/-- Whether the character lies in one of the ranges. -/
def inSpans (spans : List Span) (c : Char) : Bool :=
  spans.any fun s => s.1 ≤ c.toNat && c.toNat ≤ s.2

-- ---------------------------------------------------------------------------
-- White space
-- ---------------------------------------------------------------------------

def blankSpans : List Span :=
  [(0x9, 0xD), (0x20, 0x20), (0x85, 0x85), (0xA0, 0xA0), (0x1680, 0x1680), (0x2000, 0x200A),
   (0x2028, 0x2029), (0x202F, 0x202F), (0x205F, 0x205F), (0x3000, 0x3000)]

def isBlank (c : Char) : Bool := inSpans blankSpans c

/-- Drops the characters of a class at both ends. -/
def trimBoth (p : Char → Bool) (cs : List Char) : List Char :=
  ((cs.dropWhile p).reverse.dropWhile p).reverse

/-- Drops white space at both ends. -/
def trim (s : String) : String :=
  String.ofList (trimBoth isBlank s.toList)

/-- Whether nothing but white space is there. -/
def isBlankText (s : String) : Bool :=
  s.toList.all isBlank

-- ---------------------------------------------------------------------------
-- Pieces and bytes
-- ---------------------------------------------------------------------------

/-- The pieces between separators; there is always at least one. -/
def splitChars (isSeparator : Char → Bool) : List Char → List (List Char)
  | [] => [[]]
  | c :: cs =>
    if isSeparator c then [] :: splitChars isSeparator cs
    else match splitChars isSeparator cs with
      | [] => [[c]]
      | piece :: pieces => (c :: piece) :: pieces

/-- The pieces of a text between separators. -/
def split (isSeparator : Char → Bool) (s : String) : List String :=
  (splitChars isSeparator s.toList).map String.ofList

/-- The text with forward slashes only. -/
def forwardSlashes (s : String) : String :=
  String.ofList (s.toList.map fun c => if c = '\\' then '/' else c)

/-- The bytes of the text in UTF-8. -/
def utf8 (s : String) : List UInt8 :=
  s.toList.flatMap String.utf8EncodeChar

end ArchAudit.Text
