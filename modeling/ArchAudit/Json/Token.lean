-- SUMMARY: Tokens of JSON text and the scanner that finds them.
import ArchAudit.Json.Fault

/-!
# Tokens

`tokens` cuts text into tokens and leaves out white space. Text that is no token
ends the list with a `stop`, which tells what a reader and what a skipper of the
value would report there: a reader decodes strings and numbers, a skipper only
finds their end.
-/

namespace ArchAudit.Json

/-- A number as written: `±digits · 10^exponent`. -/
structure Numeral where
  negative : Bool
  digits : Nat
  exponent : Int
  /-- Written without fraction and exponent. -/
  integral : Bool
deriving DecidableEq, Repr

def Numeral.toDecimal (n : Numeral) : Decimal :=
  ⟨n.negative, n.digits, n.exponent⟩

/-- Text that begins like a token and is none. -/
structure Stop where
  lead : Char
  read : Reason
  skip : Reason
deriving DecidableEq, Repr

inductive Token where
  | braceOpen
  | braceClose
  | bracketOpen
  | bracketClose
  | comma
  | colon
  | null
  | bool (b : Bool)
  | number (n : Numeral)
  /-- `none` if an escape leaves a surrogate without its partner: such a string
      can be skipped but has no text. -/
  | string (s : Option String)
  | stop (s : Stop)
deriving DecidableEq, Repr

-- ---------------------------------------------------------------------------
-- Strings
-- ---------------------------------------------------------------------------

/-- A character of a string, or a 16-bit unit given by an escape. -/
inductive Piece where
  | char (c : Char)
  | unit (n : Nat)
deriving DecidableEq, Repr

def isLeadSurrogate (n : Nat) : Bool := 0xD800 ≤ n && n ≤ 0xDBFF

def isTrailSurrogate (n : Nat) : Bool := 0xDC00 ≤ n && n ≤ 0xDFFF

/-- The character of a surrogate pair. -/
def pairedChar (lead trail : Nat) : Char :=
  Char.ofNat (0x10000 + (lead - 0xD800) * 0x400 + (trail - 0xDC00))

/-- What a list of pieces spells. -/
inductive Spelling where
  | complete (cs : List Char)
  /-- The last piece is a leading surrogate whose partner may still come. -/
  | pending
  | unpaired
deriving DecidableEq, Repr

def Spelling.cons (c : Char) : Spelling → Spelling
  | .complete cs => .complete (c :: cs)
  | .pending => .pending
  | .unpaired => .unpaired

/-- Joins surrogate pairs. -/
def spell : List Piece → Spelling
  | [] => .complete []
  | .char c :: ps => (spell ps).cons c
  | [.unit n] =>
    if isLeadSurrogate n then .pending
    else if isTrailSurrogate n then .unpaired
    else .complete [Char.ofNat n]
  | .unit n :: .unit m :: ps =>
    if isLeadSurrogate n then
      if isTrailSurrogate m then (spell ps).cons (pairedChar n m) else .unpaired
    else if isTrailSurrogate n then .unpaired
    else (spell (.unit m :: ps)).cons (Char.ofNat n)
  | .unit n :: .char c :: ps =>
    if isLeadSurrogate n || isTrailSurrogate n then .unpaired
    else ((spell ps).cons c).cons (Char.ofNat n)

/-- The character that a one-letter escape stands for. -/
def simpleEscape? (c : Char) : Option Char :=
  match c with
  | '"' => some '"'
  | '\\' => some '\\'
  | '/' => some '/'
  | 'b' => some '\x08'
  | 'f' => some '\x0c'
  | 'n' => some '\n'
  | 'r' => some '\r'
  | 't' => some '\t'
  | _ => none

def hexDigit? (c : Char) : Option Nat :=
  if '0' ≤ c ∧ c ≤ '9' then some (c.toNat - '0'.toNat)
  else if 'a' ≤ c ∧ c ≤ 'f' then some (c.toNat - 'a'.toNat + 10)
  else if 'A' ≤ c ∧ c ≤ 'F' then some (c.toNat - 'A'.toNat + 10)
  else none

def fourHex? (a b c d : Char) : Option Nat := do
  return ((← hexDigit? a) * 16 + (← hexDigit? b)) * 256 + ((← hexDigit? c) * 16 + (← hexDigit? d))

/-- The pieces up to the closing quote and the text after it, or the pieces up to
    the place where the string breaks off. -/
inductive StringScan where
  | closed (pieces : List Piece) (rest : List Char)
  | broken (pieces : List Piece) (reason : Reason)
deriving DecidableEq, Repr

def StringScan.cons (p : Piece) : StringScan → StringScan
  | .closed ps rest => .closed (p :: ps) rest
  | .broken ps reason => .broken (p :: ps) reason

/-- Why four hexadecimal digits are not there: the text ends if fewer than four
    bytes are left. -/
def shortEscape (cs : List Char) : Reason :=
  if (String.ofList cs).utf8ByteSize < 4 then .ended else .malformed

/-- Scans a string whose opening quote has been read. -/
def scanString : List Char → StringScan
  | [] => .broken [] .ended
  | '"' :: cs => .closed [] cs
  | '\\' :: 'u' :: a :: b :: c :: d :: cs =>
    match fourHex? a b c d with
    | some n => (scanString cs).cons (.unit n)
    | none => .broken [] .malformed
  | '\\' :: 'u' :: cs => .broken [] (shortEscape cs)
  | '\\' :: e :: cs =>
    match simpleEscape? e with
    | some c => (scanString cs).cons (.char c)
    | none => .broken [] .malformed
  | ['\\'] => .broken [] .ended
  | c :: cs => if c.toNat < 0x20 then .broken [] .malformed else (scanString cs).cons (.char c)

theorem StringScan.rest_cons {p : Piece} {s : StringScan} {ps : List Piece} {rest : List Char}
    (h : s.cons p = .closed ps rest) : ∃ qs, s = .closed qs rest := by
  cases s with
  | closed qs r => simp [StringScan.cons] at h; exact ⟨qs, by rw [h.2]⟩
  | broken qs r => simp [StringScan.cons] at h

/-- What follows a string is shorter than the string's own text. -/
theorem scanString_rest_length {cs : List Char} {ps : List Piece} {rest : List Char}
    (h : scanString cs = .closed ps rest) : rest.length < cs.length := by
  fun_induction scanString cs generalizing ps with
  | case1 => simp at h
  | case2 cs => simp at h; simp [h.2]
  | case3 a b c d cs n hn ih =>
    obtain ⟨qs, hq⟩ := StringScan.rest_cons h
    have := ih hq
    simp only [List.length_cons]; omega
  | case4 => simp at h
  | case5 => simp at h
  | case6 e cs _ _ c hc ih =>
    obtain ⟨qs, hq⟩ := StringScan.rest_cons h
    have := ih hq
    simp only [List.length_cons]; omega
  | case7 => simp at h
  | case8 => simp at h
  | case9 => simp at h
  | case10 c cs _ _ _ _ _ _ ih =>
    obtain ⟨qs, hq⟩ := StringScan.rest_cons h
    have := ih hq
    simp only [List.length_cons]; omega

/-- The token of a finished string. -/
def stringToken (pieces : List Piece) : Token :=
  match spell pieces with
  | .complete cs => .string (some (String.ofList cs))
  | .pending => .string none
  | .unpaired => .string none

/-- The stop of a string that breaks off: a reader reports an unpaired surrogate
    before the break. -/
def stringStop (pieces : List Piece) (reason : Reason) : Stop :=
  { lead := '"'
    read := match spell pieces with
      | .complete _ => reason
      | .pending => reason
      | .unpaired => .malformed
    skip := reason }

-- ---------------------------------------------------------------------------
-- Numbers
-- ---------------------------------------------------------------------------

def isDigit (c : Char) : Bool := '0' ≤ c && c ≤ '9'

def digitsValue (ds : List Char) : Nat :=
  ds.foldl (fun n d => 10 * n + (d.toNat - '0'.toNat)) 0

/-- A number that lacks digits: a reader notices the end of the text, a skipper
    only that no digit follows. -/
def numberStop (lead : Char) (rest : List Char) : Stop :=
  { lead, read := if rest.isEmpty then .ended else .malformed, skip := .malformed }

/-- Scans digits, of which there must be at least one. -/
def scanDigits (lead : Char) (cs : List Char) : Except Stop (List Char × List Char) :=
  let digits := cs.takeWhile isDigit
  if digits.isEmpty then .error (numberStop lead cs) else .ok (digits, cs.dropWhile isDigit)

/-- Scans the digits before the point, which start with a zero only if there is
    no other. -/
def scanWhole (lead : Char) (cs : List Char) : Except Stop (List Char × List Char) := do
  let (digits, rest) ← scanDigits lead cs
  if digits.head? = some '0' ∧ 1 < digits.length then
    throw { lead, read := .malformed, skip := .malformed }
  return (digits, rest)

/-- Scans a fraction if one is there. -/
def scanFraction (lead : Char) (cs : List Char) : Except Stop (List Char × List Char) :=
  match cs with
  | '.' :: rest => scanDigits lead rest
  | _ => .ok ([], cs)

/-- Scans an exponent whose mark has been read. -/
def scanPower (lead : Char) (cs : List Char) : Except Stop (Int × List Char) :=
  match cs with
  | '-' :: rest => do
    let (digits, rest) ← scanDigits lead rest
    return (-(digitsValue digits : Int), rest)
  | '+' :: rest => do
    let (digits, rest) ← scanDigits lead rest
    return (digitsValue digits, rest)
  | _ => do
    let (digits, rest) ← scanDigits lead cs
    return (digitsValue digits, rest)

/-- Scans an exponent if one is there. -/
def scanExponent (lead : Char) (cs : List Char) : Except Stop (Option Int × List Char) :=
  match cs with
  | 'e' :: rest => do
    let (power, rest) ← scanPower lead rest
    return (some power, rest)
  | 'E' :: rest => do
    let (power, rest) ← scanPower lead rest
    return (some power, rest)
  | _ => .ok (none, cs)

/-- Scans what follows the sign of a number. -/
def scanUnsigned (lead : Char) (negative : Bool) (cs : List Char) :
    Except Stop (Token × List Char) := do
  let (whole, rest) ← scanWhole lead cs
  let (fraction, rest) ← scanFraction lead rest
  let (power, rest) ← scanExponent lead rest
  let numeral : Numeral :=
    { negative
      digits := digitsValue (whole ++ fraction)
      exponent := power.getD 0 - (fraction.length : Int)
      integral := fraction.isEmpty && power.isNone }
  return (.number numeral, rest)

-- ---------------------------------------------------------------------------
-- Tokens
-- ---------------------------------------------------------------------------

/-- Scans the letters that must follow the first one of a word. -/
def scanWord (lead : Char) (token : Token) : List Char → List Char → Except Stop (Token × List Char)
  | [], cs => .ok (token, cs)
  | _ :: _, [] => .error { lead, read := .ended, skip := .ended }
  | w :: ws, c :: cs =>
    if w = c then scanWord lead token ws cs
    else .error { lead, read := .malformed, skip := .malformed }

/-- Scans the token that starts with `c`. -/
def scanToken (c : Char) (cs : List Char) : Except Stop (Token × List Char) :=
  match c with
  | '\x7b' => .ok (.braceOpen, cs)
  | '\x7d' => .ok (.braceClose, cs)
  | '[' => .ok (.bracketOpen, cs)
  | ']' => .ok (.bracketClose, cs)
  | ',' => .ok (.comma, cs)
  | ':' => .ok (.colon, cs)
  | 'n' => scanWord c .null ['u', 'l', 'l'] cs
  | 't' => scanWord c (.bool true) ['r', 'u', 'e'] cs
  | 'f' => scanWord c (.bool false) ['a', 'l', 's', 'e'] cs
  | '"' =>
    match scanString cs with
    | .closed pieces rest => .ok (stringToken pieces, rest)
    | .broken pieces reason => .error (stringStop pieces reason)
  | '-' => scanUnsigned c true cs
  | _ =>
    if isDigit c then scanUnsigned c false (c :: cs)
    else .error { lead := c, read := .malformed, skip := .malformed }

def isSpace (c : Char) : Bool :=
  c = ' ' || c = '\n' || c = '\t' || c = '\r'

theorem scanDigits_rest_length {lead : Char} {cs : List Char} {r : List Char × List Char}
    (h : scanDigits lead cs = .ok r) : r.2.length < cs.length := by
  simp only [scanDigits] at h
  split at h
  · simp at h
  · rename_i hne
    simp only [Except.ok.injEq] at h
    subst h
    have hlen := congrArg List.length (List.takeWhile_append_dropWhile (p := isDigit) (l := cs))
    have hpos : 0 < (cs.takeWhile isDigit).length := by
      cases ht : cs.takeWhile isDigit with
      | nil => simp [ht] at hne
      | cons a l => simp
    simp only [List.length_append] at hlen
    simp only
    omega

theorem scanWhole_rest_length {lead : Char} {cs : List Char} {r : List Char × List Char}
    (h : scanWhole lead cs = .ok r) : r.2.length < cs.length := by
  simp only [scanWhole, bind, Except.bind, pure, Except.pure] at h
  split at h
  · simp at h
  · rename_i v hv
    have := scanDigits_rest_length hv
    split at h
    · simp [throw, throwThe, MonadExceptOf.throw] at h
    · simp only [Except.ok.injEq] at h
      subst h
      exact this

theorem scanFraction_rest_length {lead : Char} {cs : List Char} {r : List Char × List Char}
    (h : scanFraction lead cs = .ok r) : r.2.length ≤ cs.length := by
  unfold scanFraction at h
  split at h
  · have := scanDigits_rest_length h
    simp only [List.length_cons]; omega
  · simp only [Except.ok.injEq] at h
    simp [← h]

theorem scanPower_rest_length {lead : Char} {cs : List Char} {r : Int × List Char}
    (h : scanPower lead cs = .ok r) : r.2.length < cs.length := by
  unfold scanPower at h
  split at h <;>
  · simp only [bind, Except.bind, pure, Except.pure] at h
    split at h
    · simp at h
    · rename_i v hv
      have := scanDigits_rest_length hv
      simp only [Except.ok.injEq] at h
      subst h
      simp only [List.length_cons] at *
      omega

theorem scanExponent_rest_length {lead : Char} {cs : List Char} {r : Option Int × List Char}
    (h : scanExponent lead cs = .ok r) : r.2.length ≤ cs.length := by
  unfold scanExponent at h
  split at h
  case h_3 =>
    simp only [Except.ok.injEq] at h
    simp [← h]
  all_goals
    simp only [bind, Except.bind, pure, Except.pure] at h
    split at h
    · simp at h
    · rename_i v hv
      have := scanPower_rest_length hv
      simp only [Except.ok.injEq] at h
      subst h
      simp only [List.length_cons]
      omega

theorem scanUnsigned_rest_length {lead : Char} {negative : Bool} {cs : List Char}
    {r : Token × List Char} (h : scanUnsigned lead negative cs = .ok r) :
    r.2.length < cs.length := by
  simp only [scanUnsigned, bind, Except.bind, pure, Except.pure] at h
  cases hw : scanWhole lead cs with
  | error e => simp [hw] at h
  | ok w =>
    have h1 := scanWhole_rest_length hw
    simp only [hw] at h
    cases hf : scanFraction lead w.2 with
    | error e => simp [hf] at h
    | ok f =>
      have h2 := scanFraction_rest_length hf
      simp only [hf] at h
      cases hp : scanExponent lead f.2 with
      | error e => simp [hp] at h
      | ok p =>
        have h3 := scanExponent_rest_length hp
        simp only [hp, Except.ok.injEq] at h
        subst h
        simp only
        omega

theorem scanWord_rest_length {lead : Char} {token : Token} {ws cs : List Char}
    {r : Token × List Char} (h : scanWord lead token ws cs = .ok r) :
    r.2.length ≤ cs.length := by
  fun_induction scanWord lead token ws cs with
  | case1 cs =>
    simp only [Except.ok.injEq] at h
    simp [← h]
  | case2 => simp at h
  | case3 w ws cs ih =>
    have := ih h
    simp only [List.length_cons]; omega
  | case4 => simp at h

/-- A token takes at least its first character. -/
theorem scanToken_rest_length {c : Char} {cs : List Char} {r : Token × List Char}
    (h : scanToken c cs = .ok r) : r.2.length ≤ cs.length := by
  unfold scanToken at h
  split at h
  case h_10 =>
    split at h
    · rename_i hs
      simp only [Except.ok.injEq] at h
      have := scanString_rest_length hs
      simp only [← h]; omega
    · simp at h
  case h_11 => exact Nat.le_of_lt (scanUnsigned_rest_length h)
  case h_12 =>
    split at h
    · have := scanUnsigned_rest_length h
      simp only [List.length_cons] at this; omega
    · simp at h
  case h_7 => exact scanWord_rest_length h
  case h_8 => exact scanWord_rest_length h
  case h_9 => exact scanWord_rest_length h
  all_goals
    simp only [Except.ok.injEq] at h
    simp [← h]

/-- The tokens of a text. -/
def tokens : List Char → List Token
  | [] => []
  | c :: cs =>
    if isSpace c then tokens cs
    else match _h : scanToken c cs with
      | .error s => [.stop s]
      | .ok (t, rest) => t :: tokens rest
termination_by cs => cs.length
decreasing_by
  · simp
  · have := scanToken_rest_length _h
    simp only at this
    simp only [List.length_cons]; omega

end ArchAudit.Json
