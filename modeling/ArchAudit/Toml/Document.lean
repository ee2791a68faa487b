-- SUMMARY: Reading TOML documents.
import ArchAudit.Toml.Scalar
import ArchAudit.Toml.Table

/-!
# Documents

A document is a list of sections: assignments before any header, and those below
each header. Values nest up to a fixed depth; the fuel of their readers is the
length of the text.
-/

namespace ArchAudit.Toml

-- ---------------------------------------------------------------------------
-- Values
-- ---------------------------------------------------------------------------

/-- How deep arrays and inline tables may nest. -/
def nestingRoom : Nat := 80

mutual

/-- Reads a value with `room` levels of nesting left. -/
def value (room : Nat) : Nat → Reader Value
  | 0, _ => none
  | fuel + 1, cs =>
    match cs with
    | '"' :: _ => do
      let (s, rest) ← string cs
      return (.string s, rest)
    | '\'' :: _ => do
      let (s, rest) ← string cs
      return (.string s, rest)
    | '[' :: rest => do
      if room = 0 then none
      let (vs, rest) ← items (room - 1) fuel (← skipLines fuel rest)
      return (.array vs, rest)
    | '\x7b' :: rest => do
      if room = 0 then none
      let (pairs, rest) ← members (room - 1) fuel (← skipLines fuel rest)
      return (.table (entryValues (← assignAll pairs [])), rest)
    | _ => do
      let (w, rest) := word cs
      return (← wordValue? w, rest)

/-- Reads the items of an array up to its closing bracket. -/
def items (room : Nat) : Nat → Reader (List Value)
  | 0, _ => none
  | fuel + 1, cs =>
    match cs with
    | ']' :: rest => some ([], rest)
    | _ => do
      let (v, rest) ← value room fuel cs
      match ← skipLines fuel rest with
      | ',' :: rest =>
        let (vs, rest) ← items room fuel (← skipLines fuel rest)
        return (v :: vs, rest)
      | ']' :: rest => return ([v], rest)
      | _ => none

/-- Reads the members of an inline table up to its closing brace. Lines may end
    anywhere but inside a key. -/
def members (room : Nat) : Nat → Reader (List (List String × Value))
  | 0, _ => none
  | fuel + 1, cs =>
    match cs with
    | '\x7d' :: rest => some ([], rest)
    | _ => do
      let (path, rest) ← dottedKey cs
      let rest ← expect '=' (← skipLines fuel rest)
      let (v, rest) ← value room fuel (← skipLines fuel rest)
      match ← skipLines fuel rest with
      | ',' :: rest =>
        let (pairs, rest) ← members room fuel (← skipLines fuel rest)
        return ((path, v) :: pairs, rest)
      | '\x7d' :: rest => return ([(path, v)], rest)
      | _ => none

end

-- ---------------------------------------------------------------------------
-- Statements
-- ---------------------------------------------------------------------------

inductive Statement where
  | assignment (path : List String) (v : Value)
  | header (path : List String)
  | rowHeader (path : List String)
deriving Repr

/-- Reads one statement, of which nothing but a comment may follow on its line. -/
def statement (cs : List Char) : Option (Statement × List Char) := do
  let fuel := cs.length + 1
  let (s, rest) ← match cs with
    | '[' :: '[' :: rest => do
      let (path, rest) ← dottedKey (skipBlanks rest)
      let rest ← expect ']' (← expect ']' (skipBlanks rest))
      some (Statement.rowHeader path, rest)
    | '[' :: rest => do
      let (path, rest) ← dottedKey (skipBlanks rest)
      some (Statement.header path, ← expect ']' (skipBlanks rest))
    | _ => do
      let (path, rest) ← dottedKey cs
      let (v, rest) ← value nestingRoom fuel (skipBlanks (← expect '=' (skipBlanks rest)))
      some (Statement.assignment path v, rest)
  match ← skipComment (skipBlanks rest) with
  | [] => return (s, [])
  | '\n' :: rest => return (s, rest)
  | '\r' :: '\n' :: rest => return (s, rest)
  | _ => none

/-- Reads all statements. -/
def statements : Nat → List Char → Option (List Statement)
  | 0, _ => none
  | fuel + 1, cs => do
    match ← skipLines (cs.length + 1) cs with
    | [] => return []
    | cs =>
      let (s, rest) ← statement cs
      return s :: (← statements fuel rest)

-- ---------------------------------------------------------------------------
-- Sections
-- ---------------------------------------------------------------------------

/-- The assignments at the start of a list of statements, and the rest. -/
def leadingAssignments : List Statement → List (List String × Value) × List Statement
  | .assignment path v :: rest =>
    let (pairs, rest) := leadingAssignments rest
    ((path, v) :: pairs, rest)
  | rest => ([], rest)

theorem leadingAssignments_length (l : List Statement) :
    (leadingAssignments l).2.length ≤ l.length := by
  fun_induction leadingAssignments l with
  | case1 path v rest pairs rest' h ih =>
    simp only [h] at ih
    simp only [List.length_cons]; omega
  | case2 => simp

/-- Adds the sections of a document to its entries. -/
def addSections (entries : Entries) (l : List Statement) : Option Entries :=
  match l with
  | [] => some entries
  | .assignment path v :: rest => do addSections (← assign v path entries) rest
  | .header path :: rest => do
    let (pairs, _) := leadingAssignments rest
    let entries ← descend (openTable pairs) path entries
    addSections entries (leadingAssignments rest).2
  | .rowHeader path :: rest => do
    let (pairs, _) := leadingAssignments rest
    let entries ← descend (pushTable pairs) path entries
    addSections entries (leadingAssignments rest).2
termination_by l.length
decreasing_by
  · simp
  · have := leadingAssignments_length rest
    simp only [List.length_cons]; omega
  · have := leadingAssignments_length rest
    simp only [List.length_cons]; omega

/-- Drops a byte order mark. -/
def dropMark : List Char → List Char
  | '\uFEFF' :: cs => cs
  | cs => cs

/-- The table of a document, if the text is one. -/
def parse (text : String) : Option Value := do
  let cs := dropMark text.toList
  let entries ← addSections [] (← statements (cs.length + 1) cs)
  return .table (entryValues entries)

end ArchAudit.Toml
