-- SUMMARY: Words of identifiers and paths.
import ArchAudit.Data.Names
import ArchAudit.Text.Basic

/-!
# Words

An identifier is cut into words at every character that is not an ASCII letter or
digit, and before every capital that does not follow a capital. Two adjacent words
joined count as a word as well.
-/

namespace ArchAudit.Tokens

def isCapital (c : Char) : Bool := 'A' ≤ c && c ≤ 'Z'

/-- A small letter or a digit. -/
def isSmall (c : Char) : Bool := ('a' ≤ c && c ≤ 'z') || ('0' ≤ c && c ≤ '9')

theorem length_dropWhile_le (p : Char → Bool) (cs : List Char) :
    (cs.dropWhile p).length ≤ cs.length :=
  (List.dropWhile_suffix p).length_le

/-- The words of a text as they stand there: capitals and the small letters after
    them, or small letters alone. -/
def words : List Char → List (List Char)
  | [] => []
  | c :: cs =>
    if isCapital c then
      let capitals := c :: cs.takeWhile isCapital
      let rest := cs.dropWhile isCapital
      (capitals ++ rest.takeWhile isSmall) :: words (rest.dropWhile isSmall)
    else if isSmall c then
      (c :: cs.takeWhile isSmall) :: words (cs.dropWhile isSmall)
    else words cs
termination_by cs => cs.length
decreasing_by
  · have h1 := length_dropWhile_le isCapital cs
    have h2 := length_dropWhile_le isSmall (cs.dropWhile isCapital)
    simp only [List.length_cons]; omega
  · have := length_dropWhile_le isSmall cs
    simp only [List.length_cons]; omega
  · simp

/-- The lowercase words of a text. -/
def lowerWords (text : String) : List String :=
  (words text.toList).map fun w => String.ofList (w.map Char.toLower)

/-- Each two consecutive words joined. -/
def joinedPairs : List String → List String
  | a :: b :: ws => (a ++ b) :: joinedPairs (b :: ws)
  | _ => []

/-- The words of a text, then its joined pairs. -/
def tokenize (text : String) : List String :=
  let ws := lowerWords text
  ws ++ joinedPairs ws

end ArchAudit.Tokens
