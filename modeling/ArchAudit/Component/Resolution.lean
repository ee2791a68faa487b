-- SUMMARY: Which component a textual reference means.
import ArchAudit.Component.Basic
import ArchAudit.Text.Basic
import ArchAudit.Text.Lowercase

/-!
# Reference resolution

A reference is looked up among the components in five steps: by path, by path
without the reference's extension, by display name, by the display name of its
last segment, and by the longest shared path prefix. The first step with a
candidate decides; the earliest candidate is the target. Steps that look at only
part of the reference never lead a component to itself.
-/

namespace ArchAudit

-- ---------------------------------------------------------------------------
-- Reference text
-- ---------------------------------------------------------------------------

namespace ReferenceText

/-- A reference without surrounding blanks, in forward slashes and without one
    leading `./`. -/
def normalize (reference : String) : String :=
  match (Text.forwardSlashes (Text.trim reference)).toList with
  | '.' :: '/' :: cs => String.ofList cs
  | cs => String.ofList cs

/-- Drops the extension of the last path segment, unless the segment starts with
    its only dot. -/
def stripExtensionChars (path : List Char) : List Char :=
  let backwards := path.reverse
  let file := backwards.takeWhile (· ≠ '/')
  match file.dropWhile (· ≠ '.') with
  | '.' :: c :: stem => (c :: stem ++ backwards.dropWhile (· ≠ '/')).reverse
  | _ => path

def stripExtension (path : String) : String :=
  String.ofList (stripExtensionChars path.toList)

/-- Turns every double colon into a slash. -/
def slashColons : List Char → List Char
  | ':' :: ':' :: cs => '/' :: slashColons cs
  | c :: cs => c :: slashColons cs
  | [] => []

/-- The lowercase pieces between slashes, double colons and dots. -/
def segments (path : String) : List String :=
  ((Text.splitChars (fun c => c = '/' || c = '.') (slashColons path.toList)).filter
    (!·.isEmpty)).map fun piece => Text.lowercase (String.ofList piece)

/-- The last piece that is not empty, cutting at slashes, colons and dots. -/
def lastSegment (reference : String) : String :=
  (((Text.split (fun c => c = '/' || c = ':' || c = '.') reference).filter
    (!·.isEmpty)).getLast?).getD reference

end ReferenceText

-- ---------------------------------------------------------------------------
-- Resolution
-- ---------------------------------------------------------------------------

/-- Which property of a component matched. -/
inductive MatchStrategy where
  | exactPath
  | exactName
  | commonPrefix
deriving DecidableEq, Repr

instance : Named MatchStrategy where
  all := [.exactPath, .exactName, .commonPrefix]
  name
    | .exactPath => "exact-path"
    | .exactName => "exact-name"
    | .commonPrefix => "common-prefix"

/-- What a reference means. -/
inductive Resolution where
  | resolved (target : ComponentId) (strategy : MatchStrategy)
  /-- Several components match; the first of them is the target. -/
  | ambiguous (target : ComponentId) (strategy : MatchStrategy) (candidates : List ComponentId)
  | unresolved
deriving DecidableEq, Repr

namespace Resolution

def target? : Resolution → Option ComponentId
  | .resolved target _ => some target
  | .ambiguous target _ _ => some target
  | .unresolved => none

/-- Picks the first of the candidates. -/
def pick (strategy : MatchStrategy) : List ComponentId → Resolution
  | [] => .unresolved
  | [only] => .resolved only strategy
  | first :: second :: others => .ambiguous first strategy (first :: second :: others)

end Resolution

/-- What a component can be referred to by. -/
structure Address where
  id : ComponentId
  name : String
  /-- Its path, its path without extension, and its id. -/
  keys : List String
  /-- The segments of its path without extension. -/
  path : List String
deriving DecidableEq, Repr

namespace Address

def ofParts (id : ComponentId) (name filePath : String) : Address :=
  let path := ReferenceText.normalize filePath
  { id, name
    keys := [path, ReferenceText.stripExtension path, id]
    path := ReferenceText.segments (ReferenceText.stripExtension path) }

def ofComponent {α : Type} (c : Component α) : Address :=
  ofParts c.id c.name c.filePath

end Address

namespace Resolution

/-- The length of the common prefix of two lists. -/
def sharedLength : List String → List String → Nat
  | a :: as, b :: bs => if a = b then sharedLength as bs + 1 else 0
  | _, _ => 0

/-- The length of the shorter path, if it is not empty and starts the other one. -/
def prefixLength? (wanted path : List String) : Option Nat :=
  let shared := sharedLength wanted path
  if shared = 0 ∨ shared < Nat.min wanted.length path.length then none else some shared

/-- The components whose path shares most with the reference. -/
def byPrefix (addresses : List Address) (source : ComponentId) (wanted : List String) :
    List ComponentId :=
  let hits := (addresses.filter (·.id ≠ source)).filterMap fun a =>
    (prefixLength? wanted a.path).map fun shared => (shared, a.id)
  let best := (hits.map (·.1)).foldl Nat.max 0
  (hits.filter (·.1 = best)).map (·.2)

/-- The candidates of each step, in the order in which the steps are tried. -/
def steps (addresses : List Address) (source : ComponentId) (normalized : String) :
    List (MatchStrategy × List ComponentId) :=
  let ids (p : Address → Bool) : List ComponentId := (addresses.filter p).map (·.id)
  let stripped := ReferenceText.stripExtension normalized
  let segment := ReferenceText.lastSegment normalized
  [(.exactPath, ids fun a => a.keys.contains normalized),
   (.exactPath, ids fun a => a.keys.contains stripped && a.id ≠ source),
   (.exactName, ids fun a => a.name = normalized),
   (.exactName, ids fun a => a.name = segment && a.id ≠ source),
   (.commonPrefix, byPrefix addresses source (ReferenceText.segments normalized))]

/-- Resolves a reference that `source` makes. -/
def resolve (addresses : List Address) (source : ComponentId) (reference : String) : Resolution :=
  let normalized := ReferenceText.normalize reference
  if normalized.isEmpty then .unresolved
  else match (steps addresses source normalized).find? (!·.2.isEmpty) with
    | some (strategy, candidates) => pick strategy candidates
    | none => .unresolved

end Resolution

end ArchAudit
