-- SUMMARY: Strings, keys, numbers, dates and times of TOML.
import ArchAudit.Toml.Value

/-!
# Scalars

A reader takes characters and returns what it read together with the rest. Readers
of strings have fuel, for which the length of the text is enough.
-/

namespace ArchAudit.Toml

abbrev Reader (α : Type) := List Char → Option (α × List Char)

-- ---------------------------------------------------------------------------
-- Blanks
-- ---------------------------------------------------------------------------

def isBlank (c : Char) : Bool := c = ' ' || c = '\t'

def skipBlanks (cs : List Char) : List Char := cs.dropWhile isBlank

/-- Whether a comment or a string on one line may hold the character. -/
def isPlain (c : Char) : Bool :=
  c = '\t' || (0x20 ≤ c.toNat && c.toNat ≠ 0x7F)

/-- Skips a comment if one is there, up to the end of its line. -/
def skipComment : List Char → Option (List Char)
  | '#' :: cs =>
    match cs.dropWhile isPlain with
    | [] => some []
    | '\n' :: rest => some ('\n' :: rest)
    | '\r' :: '\n' :: rest => some ('\n' :: rest)
    | _ => none
  | cs => some cs

/-- Skips blanks, comments and ends of lines. -/
def skipLines : Nat → List Char → Option (List Char)
  | 0, cs => some cs
  | fuel + 1, cs =>
    match skipBlanks cs with
    | '\n' :: rest => skipLines fuel rest
    | '\r' :: '\n' :: rest => skipLines fuel rest
    | '#' :: rest => do skipLines fuel (← skipComment ('#' :: rest))
    | rest => some rest

-- ---------------------------------------------------------------------------
-- Strings
-- ---------------------------------------------------------------------------

def hexValue? (c : Char) : Option Nat :=
  if '0' ≤ c ∧ c ≤ '9' then some (c.toNat - '0'.toNat)
  else if 'a' ≤ c ∧ c ≤ 'f' then some (c.toNat - 'a'.toNat + 10)
  else if 'A' ≤ c ∧ c ≤ 'F' then some (c.toNat - 'A'.toNat + 10)
  else none

/-- The character whose code point the first `count` characters spell. -/
def codePoint (count : Nat) : Reader Char := fun cs => do
  if cs.length < count then none
  let digits ← (cs.take count).mapM hexValue?
  let n := digits.foldl (fun n d => 16 * n + d) 0
  if n.isValidChar then return (Char.ofNat n, cs.drop count) else none

/-- Reads an escape whose backslash has been read. -/
def escape : Reader Char
  | 'b' :: cs => some ('\x08', cs)
  | 't' :: cs => some ('\t', cs)
  | 'n' :: cs => some ('\n', cs)
  | 'f' :: cs => some ('\x0c', cs)
  | 'r' :: cs => some ('\r', cs)
  | 'e' :: cs => some ('\x1b', cs)
  | '"' :: cs => some ('"', cs)
  | '\\' :: cs => some ('\\', cs)
  | 'x' :: cs => codePoint 2 cs
  | 'u' :: cs => codePoint 4 cs
  | 'U' :: cs => codePoint 8 cs
  | _ => none

/-- Reads a string with escapes on one line. -/
def basicString : Nat → Reader (List Char)
  | 0, _ => none
  | fuel + 1, cs =>
    match cs with
    | '"' :: rest => some ([], rest)
    | '\\' :: rest => do
      let (c, rest) ← escape rest
      let (tail, rest) ← basicString fuel rest
      return (c :: tail, rest)
    | c :: rest =>
      if isPlain c then do
        let (tail, rest) ← basicString fuel rest
        return (c :: tail, rest)
      else none
    | [] => none

/-- Reads a string without escapes on one line. -/
def literalString (cs : List Char) : Option (List Char × List Char) :=
  let isBody (c : Char) : Bool := isPlain c && c ≠ '\''
  match cs.dropWhile isBody with
  | '\'' :: rest => some (cs.takeWhile isBody, rest)
  | _ => none

/-- Skips the end of line right after an opening triple quote. -/
def skipFirstNewline : List Char → List Char
  | '\n' :: rest => rest
  | '\r' :: '\n' :: rest => rest
  | rest => rest

/-- At a run of quotes that closes a string: the quotes that still belong to it, of
    which there are at most two, and the rest. -/
def closingQuotes (quote : Char) (cs : List Char) : Option (List Char × List Char) :=
  let run := (cs.takeWhile (· = quote)).length
  if run < 3 then none
  else
    let taken := Nat.min run 5
    some (List.replicate (taken - 3) quote, cs.drop taken)

/-- Skips blanks and ends of lines. A carriage return on its own ends no line. -/
def skipEmptyLines : List Char → List Char
  | '\n' :: rest => skipEmptyLines rest
  | '\r' :: '\n' :: rest => skipEmptyLines rest
  | c :: rest => if isBlank c then skipEmptyLines rest else c :: rest
  | [] => []

/-- Skips blanks and ends of lines after a backslash at the end of a line. -/
def skipContinuation (cs : List Char) : Option (List Char) :=
  match skipBlanks cs with
  | '\n' :: rest => some (skipEmptyLines rest)
  | '\r' :: '\n' :: rest => some (skipEmptyLines rest)
  | _ => none

/-- Reads a string over several lines up to its closing quotes. -/
def multiLine (quote : Char) (escapes : Bool) : Nat → Reader (List Char)
  | 0, _ => none
  | fuel + 1, cs =>
    match closingQuotes quote cs with
    | some closed => some closed
    | none =>
      match cs with
      | [] => none
      | '\r' :: '\n' :: rest => do
        let (tail, rest) ← multiLine quote escapes fuel rest
        return ('\r' :: '\n' :: tail, rest)
      | c :: rest =>
        if c = '\\' && escapes then
          match skipContinuation rest with
          | some rest => multiLine quote escapes fuel rest
          | none => do
            let (e, rest) ← escape rest
            let (tail, rest) ← multiLine quote escapes fuel rest
            return (e :: tail, rest)
        else if isPlain c || c = '\n' then do
          let (tail, rest) ← multiLine quote escapes fuel rest
          return (c :: tail, rest)
        else none

/-- Reads a string of any form. -/
def string (cs : List Char) : Option (String × List Char) :=
  let fuel := cs.length + 1
  let made (r : Option (List Char × List Char)) : Option (String × List Char) :=
    r.map fun (s, rest) => (String.ofList s, rest)
  match cs with
  | '"' :: '"' :: '"' :: rest => made (multiLine '"' true fuel (skipFirstNewline rest))
  | '\'' :: '\'' :: '\'' :: rest => made (multiLine '\'' false fuel (skipFirstNewline rest))
  | '"' :: rest => made (basicString fuel rest)
  | '\'' :: rest => made (literalString rest)
  | _ => none

-- ---------------------------------------------------------------------------
-- Keys
-- ---------------------------------------------------------------------------

def isBare (c : Char) : Bool :=
  ('a' ≤ c && c ≤ 'z') || ('A' ≤ c && c ≤ 'Z') || ('0' ≤ c && c ≤ '9') || c = '-' || c = '_'

/-- Reads one key, bare or as a string on one line. -/
def simpleKey (cs : List Char) : Option (String × List Char) :=
  match cs with
  | '"' :: '"' :: '"' :: _ => none
  | '\'' :: '\'' :: '\'' :: _ => none
  | '"' :: _ => string cs
  | '\'' :: _ => string cs
  | _ =>
    let bare := cs.takeWhile isBare
    if bare.isEmpty then none else some (String.ofList bare, cs.dropWhile isBare)

/-- Reads at most `count` keys separated by dots; more are refused. -/
def keys : Nat → Reader (List String)
  | 0, _ => none
  | count + 1, cs => do
    let (key, rest) ← simpleKey cs
    match skipBlanks rest with
    | '.' :: rest =>
      let (path, rest) ← keys count (skipBlanks rest)
      return (key :: path, rest)
    | rest => return ([key], rest)

/-- How many keys a dotted key may have. -/
def longestKey : Nat := 80

/-- Reads a dotted key. -/
def dottedKey : Reader (List String) := keys longestKey

-- ---------------------------------------------------------------------------
-- Numbers
-- ---------------------------------------------------------------------------

/-- The values of digits that underscores may separate, but not start or end. -/
def digitRun (base : Nat) : List Char → Option (List Nat)
  | [] => none
  | [c] => do
    let d ← hexValue? c
    if d < base then return [d] else none
  | c :: '_' :: rest => do
    let d ← hexValue? c
    if d < base then return d :: (← digitRun base rest) else none
  | c :: rest => do
    let d ← hexValue? c
    if d < base then return d :: (← digitRun base rest) else none

def digitsValue (base : Nat) (digits : List Nat) : Nat :=
  digits.foldl (fun n d => base * n + d) 0

/-- Digits of which the first is no zero, unless it is the only one. -/
def wholeDigits (cs : List Char) : Option (List Nat) := do
  let digits ← digitRun 10 cs
  if digits.head? = some 0 ∧ 1 < digits.length then none else return digits

/-- An exponent without its mark. -/
def power? : List Char → Option Int
  | '-' :: cs => do return -(digitsValue 10 (← digitRun 10 cs) : Int)
  | '+' :: cs => do return digitsValue 10 (← digitRun 10 cs)
  | cs => do return digitsValue 10 (← digitRun 10 cs)

/-- An integer, unless it takes more than 128 bits. -/
def integerOf? (i : Int) : Option Value :=
  if -0x80000000000000000000000000000000 ≤ i ∧ i ≤ 0xFFFFFFFFFFFFFFFFFFFFFFFFFFFFFFFF then some (.integer i) else none

/-- The binary64 number of a decimal, unless it is too large. -/
def floatOf? (d : Decimal) : Option Value :=
  let x := d.toFloat
  if x.isInf then none else some (.float x)

/-- A decimal number without its sign. -/
def decimal? (negative : Bool) (cs : List Char) : Option Value := do
  let isMark (c : Char) : Bool := c = 'e' || c = 'E'
  let mantissa := cs.takeWhile (!isMark ·)
  let power ← match cs.dropWhile (!isMark ·) with
    | [] => some none
    | _ :: rest => some <$> power? rest
  let whole ← wholeDigits (mantissa.takeWhile (· ≠ '.'))
  let fraction ← match mantissa.dropWhile (· ≠ '.') with
    | [] => some none
    | _ :: rest => some <$> digitRun 10 rest
  match power, fraction with
  | none, none =>
    let n : Int := digitsValue 10 whole
    integerOf? (if negative then -n else n)
  | _, _ =>
    let places := fraction.getD []
    floatOf?
      ⟨negative, digitsValue 10 (whole ++ places), power.getD 0 - (places.length : Int)⟩

/-- A number without its sign. -/
def unsigned? (negative : Bool) : List Char → Option Value
  | ['i', 'n', 'f'] => some (.float (if negative then -(1.0 / 0.0) else 1.0 / 0.0))
  | ['n', 'a', 'n'] => some (.float (0.0 / 0.0))
  | cs => decimal? negative cs

def number? : List Char → Option Value
  | '0' :: 'x' :: cs => do integerOf? (digitsValue 16 (← digitRun 16 cs))
  | '0' :: 'o' :: cs => do integerOf? (digitsValue 8 (← digitRun 8 cs))
  | '0' :: 'b' :: cs => do integerOf? (digitsValue 2 (← digitRun 2 cs))
  | '-' :: cs => unsigned? true cs
  | '+' :: cs => unsigned? false cs
  | cs => unsigned? false cs

-- ---------------------------------------------------------------------------
-- Dates and times
-- ---------------------------------------------------------------------------

/-- Reads a number of exactly `count` digits that lies between the bounds. -/
def fixedNumber (count least greatest : Nat) : Reader Nat := fun cs => do
  if cs.length < count then none
  let digits ← (cs.take count).mapM fun c => if c.isDigit then hexValue? c else none
  let n := digitsValue 10 digits
  if least ≤ n ∧ n ≤ greatest then return (n, cs.drop count) else none

def expect (c : Char) (cs : List Char) : Option (List Char) :=
  match cs with
  | d :: rest => if d = c then some rest else none
  | [] => none

def daysIn (year month : Nat) : Nat :=
  if month = 2 then
    if year % 4 = 0 ∧ (year % 100 ≠ 0 ∨ year % 400 = 0) then 29 else 28
  else if month = 4 ∨ month = 6 ∨ month = 9 ∨ month = 11 then 30
  else 31

/-- Skips a date. -/
def skipDate (cs : List Char) : Option (List Char) := do
  let (year, rest) ← fixedNumber 4 0 9999 cs
  let (month, rest) ← fixedNumber 2 1 12 (← expect '-' rest)
  let (_, rest) ← fixedNumber 2 1 (daysIn year month) (← expect '-' rest)
  return rest

/-- Skips a time, whose seconds and their fraction may be left out. -/
def skipTime (cs : List Char) : Option (List Char) := do
  let (_, rest) ← fixedNumber 2 0 23 cs
  let (_, rest) ← fixedNumber 2 0 59 (← expect ':' rest)
  match rest with
  | ':' :: rest =>
    let (_, rest) ← fixedNumber 2 0 60 rest
    match rest with
    | '.' :: rest =>
      if (rest.takeWhile Char.isDigit).isEmpty then none
      else return rest.dropWhile Char.isDigit
    | rest => return rest
  | rest => return rest

/-- Skips an offset if one is there. -/
def skipOffset (cs : List Char) : Option (List Char) :=
  let numeric (rest : List Char) : Option (List Char) := do
    let (_, rest) ← fixedNumber 2 0 23 rest
    let (_, rest) ← fixedNumber 2 0 59 (← expect ':' rest)
    return rest
  match cs with
  | 'Z' :: rest => some rest
  | 'z' :: rest => some rest
  | '+' :: rest => numeric rest
  | '-' :: rest => numeric rest
  | rest => some rest

/-- Whether the text is a date, a time, or both. -/
def isDateTime (cs : List Char) : Bool :=
  match skipDate cs with
  | some [] => true
  | some (c :: rest) =>
    (c = 'T' || c = 't' || c = ' ') && ((skipTime rest).bind skipOffset) == some []
  | none => skipTime cs == some []

-- ---------------------------------------------------------------------------
-- Words
-- ---------------------------------------------------------------------------

def isWordChar (c : Char) : Bool :=
  isBare c || c = '+' || c = '.' || c = ':'

/-- The characters of a value without quotes or brackets. A time may follow a date
    after one blank. -/
def word (cs : List Char) : List Char × List Char :=
  let first := cs.takeWhile isWordChar
  match cs.dropWhile isWordChar with
  | ' ' :: rest =>
    let second := rest.takeWhile isWordChar
    if skipDate first == some [] && (second.head?.any Char.isDigit) then
      (first ++ ' ' :: second, rest.dropWhile isWordChar)
    else (first, ' ' :: rest)
  | rest => (first, rest)

/-- The value of a word. -/
def wordValue? (cs : List Char) : Option Value :=
  if cs = "true".toList then some (.boolean true)
  else if cs = "false".toList then some (.boolean false)
  else if isDateTime cs then some .dateTime
  else number? cs

end ArchAudit.Toml
