-- SUMMARY: Configurations as TOML documents.
import ArchAudit.Config.Validate
import ArchAudit.Toml.Document

/-!
# Configuration documents

Every field may be left out and then has its default; unknown fields are ignored.
-/

namespace ArchAudit

open Toml

namespace LayerPatterns

def ofToml? (v : Value) : Option LayerPatterns := do
  let f ← v.fields? ["domain", "application", "infrastructure", "presentation"]
  let globs := Value.list? Value.string?
  return {
    domain := ← fieldD f "domain" standard.domain globs
    application := ← fieldD f "application" standard.application globs
    infrastructure := ← fieldD f "infrastructure" standard.infrastructure globs
    presentation := ← fieldD f "presentation" standard.presentation globs }

end LayerPatterns

namespace SeparationWeights

def ofToml? (v : Value) : Option (SeparationWeights Float) := do
  let f ← v.fields? ["layer_respect", "domain_isolation"]
  return {
    layerRespect := ← fieldD f "layer_respect" (standard Float).layerRespect Value.float?
    domainIsolation :=
      ← fieldD f "domain_isolation" (standard Float).domainIsolation Value.float? }

end SeparationWeights

namespace HidingWeights

def ofToml? (v : Value) : Option (HidingWeights Float) := do
  let f ← v.fields? ["private_ratio", "abstraction", "boundary_clarity"]
  return {
    privateRatio := ← fieldD f "private_ratio" (standard Float).privateRatio Value.float?
    abstraction := ← fieldD f "abstraction" (standard Float).abstraction Value.float?
    boundaryClarity :=
      ← fieldD f "boundary_clarity" (standard Float).boundaryClarity Value.float? }

end HidingWeights

namespace InversionWeights

def ofToml? (v : Value) : Option (InversionWeights Float) := do
  let f ← v.fields? ["abstraction", "injection", "inversion_ratio"]
  return {
    abstraction := ← fieldD f "abstraction" (standard Float).abstraction Value.float?
    injection := ← fieldD f "injection" (standard Float).injection Value.float?
    inversionRatio := ← fieldD f "inversion_ratio" (standard Float).inversionRatio Value.float? }

end InversionWeights

namespace HealthWeights

def ofToml? (v : Value) : Option (HealthWeights Float) := do
  let f ← v.fields? ["separation_of_concerns", "information_hiding", "dependency_inversion"]
  return {
    separationOfConcerns :=
      ← fieldD f "separation_of_concerns" (standard Float).separationOfConcerns Value.float?
    informationHiding :=
      ← fieldD f "information_hiding" (standard Float).informationHiding Value.float?
    dependencyInversion :=
      ← fieldD f "dependency_inversion" (standard Float).dependencyInversion Value.float? }

end HealthWeights

namespace IntentConfig

def ofToml? (v : Value) : Option (IntentConfig Float) := do
  let f ← v.fields? ["separation", "hiding", "inversion", "health", "gap_threshold"]
  return {
    separationWeights := ← fieldD f "separation" (.standard Float) SeparationWeights.ofToml?
    hidingWeights := ← fieldD f "hiding" (.standard Float) HidingWeights.ofToml?
    inversionWeights := ← fieldD f "inversion" (.standard Float) InversionWeights.ofToml?
    healthWeights := ← fieldD f "health" (.standard Float) HealthWeights.ofToml?
    gapThreshold := ← fieldD f "gap_threshold" (standard Float).gapThreshold Value.float? }

end IntentConfig

namespace StyleConfig

def ofToml? (v : Value) : Option (StyleConfig Float) := do
  let f ← v.fields?
    ["confidence_threshold", "hybrid_margin", "min_classified_components", "full_coverage"]
  return {
    confidenceThreshold :=
      ← fieldD f "confidence_threshold" (standard Float).confidenceThreshold Value.float?
    hybridMargin := ← fieldD f "hybrid_margin" (standard Float).hybridMargin Value.float?
    minClassifiedComponents :=
      ← fieldD f "min_classified_components" (standard Float).minClassifiedComponents Value.word?
    fullCoverage := ← fieldD f "full_coverage" (standard Float).fullCoverage Value.float? }

end StyleConfig

namespace GodComponentLimits

def ofToml? (v : Value) : Option GodComponentLimits := do
  let f ← v.fields? ["loc", "efferent", "exported_symbols"]
  return {
    loc := ← fieldD f "loc" standard.loc Value.word?
    efferent := ← fieldD f "efferent" standard.efferent Value.word?
    exportedSymbols := ← fieldD f "exported_symbols" standard.exportedSymbols Value.word? }

end GodComponentLimits

namespace AntiPatternConfig

def ofToml? (v : Value) : Option (AntiPatternConfig Float) := do
  let f ← v.fields? ["coupling_percentile", "coupling_floor", "coupling_cap", "god_component"]
  return {
    couplingPercentile :=
      ← fieldD f "coupling_percentile" (standard Float).couplingPercentile Value.float?
    couplingFloor := ← fieldD f "coupling_floor" (standard Float).couplingFloor Value.word?
    couplingCap := ← fieldD f "coupling_cap" (standard Float).couplingCap Value.word?
    godComponent := ← fieldD f "god_component" .standard GodComponentLimits.ofToml? }

end AntiPatternConfig

namespace Config

def ofToml? (v : Value) : Option (Config Float) := do
  let f ← v.fields? ["layers", "intents", "styles", "anti_patterns"]
  return {
    layers := ← fieldD f "layers" .standard LayerPatterns.ofToml?
    intents := ← fieldD f "intents" (.standard Float) IntentConfig.ofToml?
    styles := ← fieldD f "styles" (.standard Float) StyleConfig.ofToml?
    antiPatterns := ← fieldD f "anti_patterns" (.standard Float) AntiPatternConfig.ofToml? }

/-- The configuration of a document, if it is accepted. -/
def parse (text : String) : Except (ConfigError Float) (Config Float) :=
  match (Toml.parse text).bind ofToml? with
  | none => .error .unreadable
  | some c => do
    c.validate
    return c

end Config

/-- The wording of a refusal; a document that cannot be read at all has none. -/
def ConfigError.message? : ConfigError Float → Option String
  | .outOfRange field value expected =>
    some ("'" ++ field ++ "' = " ++ Layout.plain.text value ++ " is out of range; expected "
      ++ expected)
  | .zeroWeights group => some ("weights in '" ++ group ++ "' must not all be zero")
  | .pattern e => some e.message
  | .unreadable => none

end ArchAudit
