-- SUMMARY: JSON values to be written, and their compact and indented text.
import ArchAudit.Data.Names
import ArchAudit.Number.Decimal

/-!
# Writing JSON

Members keep the order in which they are given. Only quotes, backslashes and control
characters are escaped. A number without a decimal value is written as `null`.
-/

namespace ArchAudit.Json

inductive Value where
  | null
  | bool (b : Bool)
  | natural (n : Nat)
  | float (x : Float)
  | string (s : String)
  | array (items : List Value)
  | object (members : List (String × Value))
deriving Repr

-- ---------------------------------------------------------------------------
-- Scalars
-- ---------------------------------------------------------------------------

def hexDigit (n : Nat) : Char :=
  if n < 10 then Char.ofNat ('0'.toNat + n) else Char.ofNat ('a'.toNat + (n - 10))

/-- A character inside a string. -/
def escapeChar (c : Char) : List Char :=
  if c = '"' then ['\\', '"']
  else if c = '\\' then ['\\', '\\']
  else if c = '\x08' then ['\\', 'b']
  else if c = '\t' then ['\\', 't']
  else if c = '\n' then ['\\', 'n']
  else if c = '\x0c' then ['\\', 'f']
  else if c = '\r' then ['\\', 'r']
  else if c.toNat < 0x20 then
    ['\\', 'u', '0', '0', hexDigit (c.toNat / 16), hexDigit (c.toNat % 16)]
  else [c]

def stringText (s : String) : List Char :=
  '"' :: s.toList.flatMap escapeChar ++ ['"']

def naturalText (n : Nat) : List Char :=
  Nat.toDigits 10 n

def floatText (x : Float) : List Char :=
  (Layout.interchange.text x).toList

def boolText (b : Bool) : List Char :=
  (if b then "true" else "false").toList

def nullText : List Char := "null".toList

-- ---------------------------------------------------------------------------
-- Compact text
-- ---------------------------------------------------------------------------

mutual

/-- The text without any white space. -/
def Value.compactChars : Value → List Char
  | .null => nullText
  | .bool b => boolText b
  | .natural n => naturalText n
  | .float x => floatText x
  | .string s => stringText s
  | .array items => '[' :: compactItems items ++ [']']
  | .object members => '\x7b' :: compactMembers members ++ ['\x7d']

def compactItems : List Value → List Char
  | [] => []
  | [v] => v.compactChars
  | v :: vs => v.compactChars ++ ',' :: compactItems vs

def compactMembers : List (String × Value) → List Char
  | [] => []
  | [(key, v)] => stringText key ++ ':' :: v.compactChars
  | (key, v) :: ms => stringText key ++ ':' :: v.compactChars ++ ',' :: compactMembers ms

end

def Value.compact (v : Value) : String :=
  String.ofList v.compactChars

-- ---------------------------------------------------------------------------
-- Indented text
-- ---------------------------------------------------------------------------

/-- A new line at a level of nesting, two blanks per level. -/
def newLine (level : Nat) : List Char :=
  '\n' :: List.replicate (2 * level) ' '

mutual

/-- The text with a line per item or member; empty containers stay on one line. -/
def Value.prettyChars (level : Nat) : Value → List Char
  | .null => nullText
  | .bool b => boolText b
  | .natural n => naturalText n
  | .float x => floatText x
  | .string s => stringText s
  | .array [] => ['[', ']']
  | .array (v :: vs) => '[' :: prettyItems (level + 1) (v :: vs) ++ newLine level ++ [']']
  | .object [] => ['\x7b', '\x7d']
  | .object (m :: ms) =>
    '\x7b' :: prettyMembers (level + 1) (m :: ms) ++ newLine level ++ ['\x7d']

def prettyItems (level : Nat) : List Value → List Char
  | [] => []
  | [v] => newLine level ++ v.prettyChars level
  | v :: vs => newLine level ++ v.prettyChars level ++ ',' :: prettyItems level vs

def prettyMembers (level : Nat) : List (String × Value) → List Char
  | [] => []
  | [(key, v)] => newLine level ++ stringText key ++ ':' :: ' ' :: v.prettyChars level
  | (key, v) :: ms =>
    newLine level ++ stringText key ++ ':' :: ' ' :: v.prettyChars level
      ++ ',' :: prettyMembers level ms

end

def Value.pretty (v : Value) : String :=
  String.ofList (v.prettyChars 0)

-- ---------------------------------------------------------------------------
-- Building values
-- ---------------------------------------------------------------------------

namespace Value

/-- The name of an enumeration's value. -/
def ofNamed {α : Type} [Named α] (a : α) : Value := .string (Named.name a)

def strings (l : List String) : Value := .array (l.map .string)

def ofNameSet (s : NameSet) : Value := strings s.toList

def ofNameMap {α : Type} (f : α → Value) (m : NameMap α) : Value :=
  .object (m.entries.map fun (key, a) => (key, f a))

/-- The value, or `null`. -/
def ofOption {α : Type} (f : α → Value) : Option α → Value
  | none => .null
  | some a => f a

end Value

end ArchAudit.Json
