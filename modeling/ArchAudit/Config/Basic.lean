-- SUMMARY: The parameters of an analysis and their defaults.
import ArchAudit.Number.Scalar

/-!
# Configuration

Every parameter has a default, so a configuration may name only what differs.
-/

namespace ArchAudit

/-- Glob patterns that tell the layer of a path. -/
structure LayerPatterns where
  domain : List String
  application : List String
  infrastructure : List String
  presentation : List String
deriving DecidableEq, Repr

-- ---------------------------------------------------------------------------
-- Weights
-- ---------------------------------------------------------------------------

/-- Weights of the parts of separation of concerns. -/
structure SeparationWeights (α : Type) where
  layerRespect : α
  domainIsolation : α
deriving DecidableEq, Repr

/-- Weights of the parts of information hiding. -/
structure HidingWeights (α : Type) where
  privateRatio : α
  abstraction : α
  boundaryClarity : α
deriving DecidableEq, Repr

/-- Weights of the parts of dependency inversion. -/
structure InversionWeights (α : Type) where
  abstraction : α
  injection : α
  inversionRatio : α
deriving DecidableEq, Repr

/-- Weights of the three intents in the overall health. -/
structure HealthWeights (α : Type) where
  separationOfConcerns : α
  informationHiding : α
  dependencyInversion : α
deriving DecidableEq, Repr

-- ---------------------------------------------------------------------------
-- Groups
-- ---------------------------------------------------------------------------

structure IntentConfig (α : Type) where
  separationWeights : SeparationWeights α
  hidingWeights : HidingWeights α
  inversionWeights : InversionWeights α
  healthWeights : HealthWeights α
  /-- An intent that scores below this leads to a recommendation. -/
  gapThreshold : α
deriving DecidableEq, Repr

structure StyleConfig (α : Type) where
  /-- A style is considered only with a confidence above this. -/
  confidenceThreshold : α
  /-- Styles closer than this to the best one form a hybrid. -/
  hybridMargin : α
  /-- With fewer classified components the confidence is zero. -/
  minClassifiedComponents : Nat
  /-- The share of classified components that counts as full coverage. -/
  fullCoverage : α
deriving DecidableEq, Repr

/-- A component is oversized if it exceeds all three limits. -/
structure GodComponentLimits where
  loc : Nat
  efferent : Nat
  exportedSymbols : Nat
deriving DecidableEq, Repr

structure AntiPatternConfig (α : Type) where
  /-- The percentile of coupling above which a component is tightly coupled. -/
  couplingPercentile : α
  /-- The percentile flags only components with at least this much coupling. -/
  couplingFloor : Nat
  /-- Coupling above this is always flagged. -/
  couplingCap : Nat
  godComponent : GodComponentLimits
deriving DecidableEq, Repr

structure Config (α : Type) where
  layers : LayerPatterns
  intents : IntentConfig α
  styles : StyleConfig α
  antiPatterns : AntiPatternConfig α
deriving DecidableEq, Repr

-- ---------------------------------------------------------------------------
-- Defaults
-- ---------------------------------------------------------------------------

/-- Directories that customarily hold a layer's code, anywhere in a path. -/
def LayerPatterns.standard : LayerPatterns where
  domain := ["**/domain/**", "**/entity/**", "**/entities/**", "**/model/**", "**/models/**"]
  application :=
    ["**/application/**", "**/usecase/**", "**/usecases/**", "**/service/**", "**/services/**"]
  infrastructure :=
    ["**/infrastructure/**", "**/adapter/**", "**/adapters/**", "**/repository/**",
     "**/repositories/**", "**/persistence/**"]
  presentation :=
    ["**/presentation/**", "**/handler/**", "**/handlers/**", "**/controller/**",
     "**/controllers/**", "**/api/**", "**/cmd/**"]

def GodComponentLimits.standard : GodComponentLimits := ⟨500, 15, 20⟩

section Defaults

variable (α : Type) [Scalar α]

def SeparationWeights.standard : SeparationWeights α := ⟨0.5, 0.5⟩

def HidingWeights.standard : HidingWeights α := ⟨0.4, 0.3, 0.3⟩

def InversionWeights.standard : InversionWeights α := ⟨0.3, 0.3, 0.4⟩

def HealthWeights.standard : HealthWeights α := ⟨1.0, 1.0, 1.0⟩

def IntentConfig.standard : IntentConfig α :=
  ⟨.standard α, .standard α, .standard α, .standard α, 0.5⟩

def StyleConfig.standard : StyleConfig α := ⟨0.4, 0.15, 2, 0.6⟩

def AntiPatternConfig.standard : AntiPatternConfig α := ⟨0.9, 3, 20, .standard⟩

def Config.standard : Config α :=
  ⟨.standard, .standard α, .standard α, .standard α⟩

end Defaults

end ArchAudit
