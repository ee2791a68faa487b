-- SUMMARY: Glob patterns: their parts and the parser.

/-!
# Glob patterns

A pattern is read from left to right. Braces group alternatives and may be nested;
a double star is special only next to a slash or at the start of the pattern or of
an alternative.
-/

namespace ArchAudit

namespace Glob

/-- A part of a pattern. -/
inductive Part where
  | literal (c : Char)
  /-- Any one byte. -/
  | any
  /-- Any bytes. -/
  | star
  /-- Nothing, a slash, or any bytes that end in a slash. -/
  | leadingDirs
  /-- A slash and any bytes. -/
  | trailingDirs
  /-- A slash, or any bytes between two slashes. -/
  | middleDirs
  /-- One byte of the ranges, or one outside of them. -/
  | oneOf (negated : Bool) (ranges : List (Char × Char))
  | alternatives (branches : List (List Part))
deriving Repr

/-- Why a pattern is refused. -/
inductive Problem where
  | unclosedClass
  | unclosedGroup
  | unopenedGroup
  | reversedRange (first last : Char)
  | danglingEscape
deriving DecidableEq, Repr

def Problem.text : Problem → String
  | .unclosedClass => "unclosed character class; missing ']'"
  | .unclosedGroup =>
    "unclosed alternate group; missing '\x7d' (maybe escape '\x7b' with '[\x7b]'?)"
  | .unopenedGroup =>
    "unopened alternate group; missing '\x7b' (maybe escape '\x7d' with '[\x7d]'?)"
  | .reversedRange first last =>
    "invalid range; '" ++ first.toString ++ "' > '" ++ last.toString ++ "'"
  | .danglingEscape => "dangling '\\'"

-- ---------------------------------------------------------------------------
-- Character classes
-- ---------------------------------------------------------------------------

/-- The state inside square brackets: the ranges in reverse, and whether a hyphen
    waits for the end of a range. -/
structure ClassState where
  ranges : List (Char × Char)
  pending : Bool

/-- Extends the last range up to a character. -/
def ClassState.extend (s : ClassState) (c : Char) : Except Problem ClassState :=
  match s.ranges with
  | [] => .ok ⟨[(c, c)], false⟩
  | (first, _) :: ranges =>
    if c < first then .error (.reversedRange first c) else .ok ⟨(first, c) :: ranges, false⟩

/-- Takes a character that is not the closing bracket. -/
def ClassState.push (s : ClassState) (isFirst : Bool) (c : Char) : Except Problem ClassState :=
  if s.pending then s.extend c
  else if c = '-' && !isFirst then .ok { s with pending := true }
  else .ok ⟨(c, c) :: s.ranges, false⟩

/-- The ranges when the closing bracket is met; a waiting hyphen is literal. -/
def ClassState.close (s : ClassState) : List (Char × Char) :=
  (if s.pending then ('-', '-') :: s.ranges else s.ranges).reverse

/-- Reads a class up to its closing bracket. A bracket that comes first is
    literal. -/
def readClass (s : ClassState) (isFirst : Bool) :
    List Char → Except Problem (List (Char × Char) × List Char)
  | [] => .error .unclosedClass
  | c :: cs =>
    if c = ']' && !isFirst then .ok (s.close, cs)
    else do readClass (← s.push isFirst c) false cs

theorem readClass_rest_length {s : ClassState} {isFirst : Bool} {cs : List Char}
    {r : List (Char × Char) × List Char} (h : readClass s isFirst cs = .ok r) :
    r.2.length < cs.length := by
  fun_induction readClass s isFirst cs with
  | case1 => simp at h
  | case2 s isFirst c cs _ =>
    simp only [Except.ok.injEq] at h
    simp [← h]
  | case3 s isFirst c cs _ ih =>
    cases hp : s.push isFirst c with
    | error e => simp [hp, bind, Except.bind] at h
    | ok t =>
      have := ih t (by simpa [hp, bind, Except.bind] using h)
      simp only [List.length_cons]; omega

-- ---------------------------------------------------------------------------
-- Patterns
-- ---------------------------------------------------------------------------

/-- A group of alternatives that is still open: the parts before it, in reverse,
    and its finished alternatives, in reverse. -/
structure OpenGroup where
  before : List Part
  branches : List (List Part)

/-- The state of the parser. -/
structure State where
  /-- The parts of the current alternative, in reverse. -/
  parts : List Part
  /-- The groups around it, innermost first. -/
  groups : List OpenGroup
  /-- The character read last. -/
  previous : Option Char

namespace State

def push (s : State) (p : Part) (c : Char) : State :=
  { s with parts := p :: s.parts, previous := some c }

def openGroup (s : State) : State :=
  { parts := [], groups := ⟨s.parts, []⟩ :: s.groups, previous := some '\x7b' }

def closeGroup (s : State) : Except Problem State :=
  match s.groups with
  | [] => .error .unopenedGroup
  | g :: groups =>
    .ok { parts := .alternatives (s.parts.reverse :: g.branches).reverse :: g.before
          groups, previous := some '\x7d' }

def comma (s : State) : State :=
  match s.groups with
  | [] => s.push (.literal ',') ','
  | g :: groups =>
    { parts := [], groups := ⟨g.before, s.parts.reverse :: g.branches⟩ :: groups
      previous := some ',' }

/-- Replaces the part before a double star, keeping one that already stands for
    directories at the start or the end. -/
def replaceLast (s : State) (p : Part) : List Part :=
  match s.parts with
  | .leadingDirs :: parts => .leadingDirs :: parts
  | .trailingDirs :: parts => .trailingDirs :: parts
  | _ :: parts => p :: parts
  | [] => [p]

/-- Whether a double star may stand for directories here: after a slash or, in a
    group, after the comma or brace that starts an alternative. -/
def atBoundary (s : State) : Bool :=
  s.previous = some '/' ||
    (!s.groups.isEmpty && (s.previous = some ',' || s.previous = some '\x7b'))

/-- Takes a double star that `rest` follows, and returns what is left to read. -/
def doubleStar (s : State) (rest : List Char) : State × List Char :=
  let plain : State × List Char :=
    ({ s with parts := .star :: .star :: s.parts, previous := some '*' }, rest)
  let slashed (parts : List Part) : State := { s with parts, previous := some '/' }
  let ended (parts : List Part) : State := { s with parts, previous := some '*' }
  if s.parts.isEmpty then
    match rest with
    | [] => (ended [.leadingDirs], [])
    | '/' :: cs => (slashed [.leadingDirs], cs)
    | _ => plain
  else if s.atBoundary then
    match rest with
    | [] => (ended (s.replaceLast .trailingDirs), [])
    | '/' :: cs => (slashed (s.replaceLast .middleDirs), cs)
    | c :: _ =>
      if !s.groups.isEmpty && (c = ',' || c = '\x7d') then
        (ended (s.replaceLast .trailingDirs), rest)
      else plain
  else plain

theorem doubleStar_rest_length (s : State) (rest : List Char) :
    (s.doubleStar rest).2.length ≤ rest.length := by
  unfold doubleStar
  simp only
  repeat' split
  all_goals simp

end State

/-- Reads one element that starts with `c`, and returns what is left to read. -/
def readPart (s : State) (c : Char) (cs : List Char) : Except Problem (State × List Char) :=
  match c with
  | '?' => .ok (s.push .any c, cs)
  | '*' =>
    match cs with
    | '*' :: rest => .ok (s.doubleStar rest)
    | _ => .ok (s.push .star c, cs)
  | '[' =>
    let (negated, body) : Bool × List Char := match cs with
      | '!' :: rest => (true, rest)
      | '^' :: rest => (true, rest)
      | rest => (false, rest)
    match readClass ⟨[], false⟩ true body with
    | .error problem => .error problem
    | .ok (ranges, rest) => .ok (s.push (.oneOf negated ranges) ']', rest)
  | '\x7b' => .ok (s.openGroup, cs)
  | '\x7d' => s.closeGroup.map (·, cs)
  | ',' => .ok (s.comma, cs)
  | '\\' =>
    match cs with
    | [] => .error .danglingEscape
    | e :: rest => .ok (s.push (.literal e) e, rest)
  | _ => .ok (s.push (.literal c) c, cs)

theorem readPart_rest_length {s : State} {c : Char} {cs : List Char} {r : State × List Char}
    (h : readPart s c cs = .ok r) : r.2.length ≤ cs.length := by
  unfold readPart at h
  split at h
  case h_2 =>
    split at h
    · rename_i rest
      have := s.doubleStar_rest_length rest
      simp only [Except.ok.injEq] at h
      simp only [← h, List.length_cons]; omega
    · simp only [Except.ok.injEq] at h
      simp [← h]
  case h_3 =>
    simp only at h
    split at h
    · simp at h
    · rename_i ranges rest hclass
      have hlen := readClass_rest_length hclass
      simp only [Except.ok.injEq] at h
      simp only [← h]
      simp only at hlen
      split at hlen <;> simp_all <;> omega
  case h_5 =>
    cases hs : s.closeGroup with
    | error e => simp [hs, Except.map] at h
    | ok t =>
      simp only [hs, Except.map, Except.ok.injEq] at h
      simp [← h]
  case h_7 =>
    split at h
    · simp at h
    · simp only [Except.ok.injEq] at h
      simp [← h]
  all_goals
    simp only [Except.ok.injEq] at h
    simp [← h]

/-- Reads the rest of a pattern. -/
def readParts (s : State) (cs : List Char) : Except Problem (List Part) :=
  match cs with
  | [] => if s.groups.isEmpty then .ok s.parts.reverse else .error .unclosedGroup
  | c :: cs =>
    match _h : readPart s c cs with
    | .error problem => .error problem
    | .ok (s, rest) => readParts s rest
termination_by cs.length
decreasing_by
  have := readPart_rest_length _h
  simp only at this
  simp only [List.length_cons]; omega

end Glob

/-- A pattern, in parts. -/
structure Glob where
  parts : List Glob.Part
deriving Repr

/-- Reads a pattern. -/
def Glob.parse (pattern : String) : Except Glob.Problem Glob :=
  (Glob.readParts ⟨[], [], none⟩ pattern.toList).map (⟨·⟩)

end ArchAudit
