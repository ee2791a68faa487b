-- SUMMARY: Lowercasing of text, with the final form of sigma.
import ArchAudit.Text.Cased
import ArchAudit.Text.LowercaseTable

/-!
# Lowercase

Characters map one by one, except that a dotted capital I becomes two characters
and a capital sigma takes its final form at the end of a word.
-/

namespace ArchAudit.Text

/-- The character that a run of the table maps to, if the run covers it. -/
def lowercaseIn (n : Nat) (run : Nat × Nat × Nat × Int) : Option Nat :=
  let (first, last, step, distance) := run
  if first ≤ n ∧ n ≤ last ∧ (n - first) % step = 0 then some ((n : Int) + distance).toNat
  else none

/-- The lowercase of a character on its own. -/
def lowercaseChar (c : Char) : List Char :=
  if c.toNat < 0x80 then [c.toLower]
  else if c.toNat = 0x130 then ['i', Char.ofNat 0x307]
  else match lowercaseRuns.findSome? (lowercaseIn c.toNat) with
    | some n => [Char.ofNat n]
    | none => [c]

/-- Whether a cased character comes first once case-ignorable ones are skipped. -/
def startsCased (cs : List Char) : Bool :=
  match cs.dropWhile isCaseIgnorable with
  | [] => false
  | c :: _ => isCased c

/-- Lowercases a text of which `before`, in reverse, has been read. -/
def lowercaseFrom (before : List Char) : List Char → List Char
  | [] => []
  | c :: after =>
    (if c.toNat = 0x3A3 then
      [Char.ofNat (if startsCased before && !startsCased after then 0x3C2 else 0x3C3)]
    else lowercaseChar c) ++ lowercaseFrom (c :: before) after

def lowercase (s : String) : String :=
  String.ofList (lowercaseFrom [] s.toList)

end ArchAudit.Text
