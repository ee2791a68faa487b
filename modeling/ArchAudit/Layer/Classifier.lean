-- SUMMARY: Telling the layer and the feature domain of a component from its path.
import ArchAudit.Config.Basic
import ArchAudit.Glob.Match
import ArchAudit.Layer.Basic
import ArchAudit.Text.Lowercase

/-!
# Layers of paths

A path belongs to the first layer, from the domain outwards, one of whose patterns
it matches. Its domain is its first directory that names a feature: neither a
customary source directory nor a directory of a layer.
-/

namespace ArchAudit

/-- Why the patterns of a layer are refused. -/
inductive PatternError where
  /-- A pattern cannot be read. -/
  | unreadable (pattern : String) (problem : Glob.Problem)
  /-- One of the patterns nests too deep. It is told by its expression if that ends
      in an extension, and by its place among the other expressions if not. -/
  | tooDeep (patterns : List String) (expression : Option String) (place : Nat)
deriving DecidableEq, Repr

def PatternError.message : PatternError → String
  | .unreadable pattern problem =>
    "invalid glob pattern '" ++ pattern ++ "': error parsing glob '" ++ pattern ++ "': "
      ++ problem.text
  | .tooDeep patterns expression place =>
    "invalid glob pattern '" ++ ", ".intercalate patterns ++ "': "
      ++ (match expression with
        | some text => "error parsing glob '" ++ text ++ "': "
        | none => "")
      ++ "error parsing pattern " ++ toString place

/-- The patterns of each layer, ready for matching. -/
structure LayerClassifier where
  domain : List Glob
  application : List Glob
  infrastructure : List Glob
  presentation : List Glob
deriving Repr

namespace LayerClassifier

def readPattern (pattern : String) : Except PatternError Glob :=
  match Glob.parse pattern with
  | .ok glob => .ok glob
  | .error problem => .error (.unreadable pattern problem)

/-- What to report if one of the patterns nests too deep. Those that end in an
    extension are looked at first. -/
def depthError? (patterns : List String) (globs : List Glob) : Option PatternError :=
  match globs.find? fun g => g.form = .extendedExpression && g.isTooDeep with
  | some g => some (.tooDeep patterns (some g.expressionText) 0)
  | none =>
    ((globs.filter (·.form = .expression)).findIdx? Glob.isTooDeep).map
      (.tooDeep patterns none ·)

/-- Reads the patterns of one layer; the first faulty one is reported. -/
def readPatterns (patterns : List String) : Except PatternError (List Glob) := do
  let globs ← patterns.mapM readPattern
  match depthError? patterns globs with
  | some error => throw error
  | none => return globs

/-- Reads the patterns of the layers in order. -/
def ofPatterns (p : LayerPatterns) : Except PatternError LayerClassifier := do
  let domain ← readPatterns p.domain
  let application ← readPatterns p.application
  let infrastructure ← readPatterns p.infrastructure
  let presentation ← readPatterns p.presentation
  return { domain, application, infrastructure, presentation }

def globs (k : LayerClassifier) : Layer → List Glob
  | .domain => k.domain
  | .application => k.application
  | .infrastructure => k.infrastructure
  | .presentation => k.presentation

/-- The layer of a path. -/
def classify (k : LayerClassifier) (path : String) : Option Layer :=
  let normalized := Text.forwardSlashes path
  (Named.all : List Layer).find? fun layer => (k.globs layer).any (·.isMatch normalized)

/-- Directories that say nothing about the feature. -/
def neutralDirectories : List String :=
  ["src", "lib", "app", "internal", "pkg", "main", "java", "kotlin"]

/-- Whether a directory on its own puts a file into a layer. -/
def isLayerDirectory (k : LayerClassifier) (directory : String) : Bool :=
  (k.classify (directory ++ "/x")).isSome

/-- The directories of a path: all but the last of its non-empty segments. -/
def directories (path : String) : List String :=
  ((Text.split (· = '/') path).filter (!·.isEmpty)).dropLast

/-- The feature that a path belongs to. -/
def domainKey (k : LayerClassifier) (path : String) : Option String :=
  ((directories (Text.forwardSlashes path)).map Text.lowercase).find? fun directory =>
    !neutralDirectories.contains directory && !k.isLayerDirectory directory

end LayerClassifier

end ArchAudit
