-- SUMMARY: Refactoring advice from violations and weak intents.
import ArchAudit.Intent.Basic
import ArchAudit.Violation.Basic

/-!
# Recommendations

Violations of one kind lead to one recommendation, and so does each intent whose
measured score falls short. The most urgent advice comes first.
-/

namespace ArchAudit

inductive RefactoringCategory where
  | breakCycle
  | reduceCoupling
  | decoupleBidirectional
  | extractClass
  | realignArchitecture
  | enforceLayering
  | encapsulate
  | introduceAbstraction
  | separateConcerns
deriving DecidableEq, Repr

namespace RefactoringCategory

instance : Named RefactoringCategory where
  all := [.breakCycle, .reduceCoupling, .decoupleBidirectional, .extractClass,
    .realignArchitecture, .enforceLayering, .encapsulate, .introduceAbstraction,
    .separateConcerns]
  name
    | .breakCycle => "break-cycle"
    | .reduceCoupling => "reduce-coupling"
    | .decoupleBidirectional => "decouple-bidirectional"
    | .extractClass => "extract-class"
    | .realignArchitecture => "realign-architecture"
    | .enforceLayering => "enforce-layering"
    | .encapsulate => "encapsulate"
    | .introduceAbstraction => "introduce-abstraction"
    | .separateConcerns => "separate-concerns"

/-- The place of the category in their order. -/
def rank : RefactoringCategory → Nat
  | .breakCycle => 0
  | .reduceCoupling => 1
  | .decoupleBidirectional => 2
  | .extractClass => 3
  | .realignArchitecture => 4
  | .enforceLayering => 5
  | .encapsulate => 6
  | .introduceAbstraction => 7
  | .separateConcerns => 8

/-- What to do about violations of a kind. -/
def ofViolation : ViolationKind → RefactoringCategory
  | .cycle => .breakCycle
  | .tightCoupling => .reduceCoupling
  | .bidirectionalCoupling => .decoupleBidirectional
  | .godComponent => .extractClass
  | .erosion => .realignArchitecture
  | .layerViolation => .enforceLayering

/-- What to do about an intent that falls short. -/
def ofIntent : IntentKind → RefactoringCategory
  | .separationOfConcerns => .separateConcerns
  | .informationHiding => .encapsulate
  | .dependencyInversion => .introduceAbstraction

end RefactoringCategory

inductive Priority where
  | low
  | medium
  | high
deriving DecidableEq, Repr

namespace Priority

instance : Named Priority where
  all := [.low, .medium, .high]
  name
    | .low => "low"
    | .medium => "medium"
    | .high => "high"

def rank : Priority → Nat
  | .low => 0
  | .medium => 1
  | .high => 2

def ofBand : SeverityBand → Priority
  | .minor => .low
  | .moderate => .medium
  | .severe => .high

end Priority

structure Recommendation where
  text : String
  relatedViolations : List String
  category : RefactoringCategory
  priority : Priority
  affectedComponents : List ComponentId
deriving DecidableEq, Repr

namespace Recommendation

variable {α : Type}

-- ---------------------------------------------------------------------------
-- Violations
-- ---------------------------------------------------------------------------

/-- The advice for `count` violations of a kind among the components named. -/
def violationText (kind : ViolationKind) (count : Nat) (who : String) : String :=
  let n := toString count
  match kind with
  | .cycle =>
    "Break " ++ n ++ " dependency cycle(s) among " ++ who
      ++ " by extracting the shared contract into its own component or inverting one dependency."
  | .tightCoupling =>
    "Reduce coupling of " ++ n ++ " highly connected component(s) (" ++ who
      ++ ") by splitting responsibilities or routing callers through a narrower interface."
  | .bidirectionalCoupling =>
    "Make " ++ n ++ " mutually dependent pair(s) one-directional (" ++ who
      ++ "); move the shared part into a component both can depend on."
  | .godComponent =>
    "Split " ++ n ++ " oversized component(s) (" ++ who
      ++ ") into cohesive units with smaller public surfaces."
  | .erosion =>
    "Realign " ++ n ++ " eroded architectural style(s): dependencies between " ++ who
      ++ " no longer follow the intended structure."
  | .layerViolation =>
    "Fix " ++ n ++ " dependency rule violation(s) involving " ++ who
      ++ " so that each edge follows the allowed direction between roles."

/-- The highest band of a group. -/
def highestBand (group : List (Violation α)) : SeverityBand :=
  (group.map (·.band)).foldl SeverityBand.max .minor

/-- The advice for all violations of a kind, which are not none. -/
def ofGroup (kind : ViolationKind) (group : List (Violation α)) : Recommendation :=
  let affected := ascendingNames (group.flatMap (·.participants))
  { text := violationText kind group.length (", ".intercalate affected)
    relatedViolations := group.map (·.id)
    category := .ofViolation kind
    priority := .ofBand (highestBand group)
    affectedComponents := affected }

/-- The advice for each kind of violation that occurs. -/
def ofViolations (violations : List (Violation α)) : List Recommendation :=
  (Named.all : List ViolationKind).filterMap fun kind =>
    let group := violations.filter (·.kind = kind)
    if group.isEmpty then none else some (ofGroup kind group)

-- ---------------------------------------------------------------------------
-- Intents
-- ---------------------------------------------------------------------------

def gapAdvice : IntentKind → String
  | .separationOfConcerns =>
    "Separate concerns: keep layers and feature domains from reaching into each other"
  | .informationHiding =>
    "Encapsulate internals: export fewer symbols and depend only on public surfaces"
  | .dependencyInversion =>
    "Introduce abstractions: have high-level policy depend on interfaces and inject "
      ++ "concrete implementations"

/-- The components that weakening evidence names. -/
def weakened (r : IntentResult α) : List ComponentId :=
  ascendingNames ((r.evidence.filter (·.signal = .weakens)).flatMap (·.components))

variable [Scalar α]

/-- The advice for an intent whose measured score falls short; an intent of which
    nothing was measured never does. Its urgency is the shortfall relative to the
    threshold. -/
def ofIntent? (threshold : α) (r : IntentResult α) : Option Recommendation :=
  match r.measuredScore with
  | none => none
  | some score =>
    if score < threshold then
      some
        { text := gapAdvice r.kind ++ " (" ++ r.kind.title ++ " scored "
            ++ Scalar.fixedPlaces score 2 ++ ")."
          relatedViolations := []
          category := .ofIntent r.kind
          priority := .ofBand (.ofScore (1.0 - score / threshold))
          affectedComponents := weakened r }
    else none

-- ---------------------------------------------------------------------------
-- All
-- ---------------------------------------------------------------------------

/-- Higher priority comes first; equal priority goes by category. -/
def precedes (a b : Recommendation) : Bool :=
  b.priority.rank < a.priority.rank ||
    (a.priority.rank = b.priority.rank && a.category.rank ≤ b.category.rank)

/-- All advice, the most urgent first. -/
def recommend (threshold : α) (violations : List (Violation α))
    (intents : List (IntentResult α)) : List Recommendation :=
  (ofViolations violations ++ intents.filterMap (ofIntent? threshold)).mergeSort precedes

end Recommendation

end ArchAudit
