-- SUMMARY: What a glob pattern looks at in a path.
import ArchAudit.Glob.Pattern

/-!
# Forms

Patterns of simple forms look at a piece of the path only: at its file name, at the
extension of that, at its front, at its back or at its last segment. The first form
that fits counts.
-/

namespace ArchAudit.Glob

/-- What a pattern looks at. -/
inductive Form where
  /-- The file name has to be a given one. -/
  | fileName
  /-- The path has to be a given one. -/
  | path
  /-- The file name has to have a given extension. -/
  | extension
  /-- The path has to start in a given way. -/
  | front
  /-- The path has to end in a given way. -/
  | back
  /-- The path has to match and its file name to have a given extension. -/
  | extendedExpression
  /-- The last segment of the path has to match. -/
  | lastSegment
  /-- The path has to match. -/
  | expression
deriving DecidableEq, Repr

-- ---------------------------------------------------------------------------
-- Parts
-- ---------------------------------------------------------------------------

def Part.literal? : Part → Option Char
  | .literal c => some c
  | _ => none

/-- The text of parts that are all literal. -/
def literals? (parts : List Part) : Option (List Char) := parts.mapM Part.literal?

/-- What follows leading directories, if a pattern starts with them. -/
def afterLeadingDirs? : List Part → Option (List Part)
  | .leadingDirs :: parts => some parts
  | _ => none

def withoutLeadingDirs (parts : List Part) : List Part :=
  (afterLeadingDirs? parts).getD parts

-- ---------------------------------------------------------------------------
-- Forms
-- ---------------------------------------------------------------------------

/-- Leading directories and a text without a slash. -/
def isFileName (parts : List Part) : Bool :=
  match (afterLeadingDirs? parts).bind literals? with
  | some cs => !cs.isEmpty && !cs.contains '/'
  | none => false

/-- A text. -/
def isPath (parts : List Part) : Bool :=
  !parts.isEmpty && (literals? parts).isSome

/-- A star, perhaps after leading directories, and a text that starts with its only
    dot and has no slash. -/
def isExtension (parts : List Part) : Bool :=
  match withoutLeadingDirs parts with
  | .star :: .literal '.' :: rest =>
    match literals? rest with
    | some cs => !cs.contains '.' && !cs.contains '/'
    | none => false
  | _ => false

/-- A text before a star or trailing directories. -/
def isFront (parts : List Part) : Bool :=
  match parts.getLast? with
  | some .star => isPath parts.dropLast
  | some .trailingDirs => (literals? parts.dropLast).isSome
  | _ => false

/-- A text after leading directories, a star or both. A slash on its own counts only
    right after leading directories. -/
def isBack (parts : List Part) : Bool :=
  match withoutLeadingDirs parts with
  | .star :: rest => isPath rest && literals? rest != some ['/']
  | rest => (afterLeadingDirs? parts).isSome && isPath rest

/-- The last parts are literal from a dot on and have no slash. -/
def endsInExtension (parts : List Part) : Bool :=
  let isBody (p : Part) : Bool := p.literal?.any fun c => c ≠ '.' && c ≠ '/'
  ((parts.reverse.dropWhile isBody).head?.bind Part.literal?) == some '.'

/-- Whether a part stands for characters that are no slash. -/
def Part.staysInSegment : Part → Bool
  | .literal c => c ≠ '/'
  | .oneOf negated ranges => ranges.any (fun r => r.1 ≤ '/' && '/' ≤ r.2) == negated
  | _ => false

/-- Leading directories and parts none of which stands for a slash. -/
def isLastSegment (parts : List Part) : Bool :=
  (afterLeadingDirs? parts).any fun rest => !rest.isEmpty && rest.all Part.staysInSegment

def form (g : Glob) : Form :=
  if isFileName g.parts then .fileName
  else if isPath g.parts then .path
  else if isExtension g.parts then .extension
  else if isFront g.parts then .front
  else if isBack g.parts then .back
  else if endsInExtension g.parts then .extendedExpression
  else if isLastSegment g.parts then .lastSegment
  else .expression

/-- Whether a pattern of the form looks at the file name. -/
def Form.usesFileName : Form → Bool
  | .fileName => true
  | .extension => true
  | .extendedExpression => true
  | _ => false

end ArchAudit.Glob
