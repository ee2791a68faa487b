-- SUMMARY: JSON forms of configurations.
import ArchAudit.Config.Basic
import ArchAudit.Json.Decode
import ArchAudit.Json.Value

/-!
# Configurations in JSON

Every field may be left out and then has its default.
-/

namespace ArchAudit

open Json

namespace LayerPatterns

def toJson (p : LayerPatterns) : Value :=
  .object
    [("domain", .strings p.domain),
     ("application", .strings p.application),
     ("infrastructure", .strings p.infrastructure),
     ("presentation", .strings p.presentation)]

def decode : Decoder LayerPatterns :=
  record "LayersConfig" <|
    LayerPatterns.mk <$> fieldD "domain" standard.domain (list string)
      <*> fieldD "application" standard.application (list string)
      <*> fieldD "infrastructure" standard.infrastructure (list string)
      <*> fieldD "presentation" standard.presentation (list string)

end LayerPatterns

namespace SeparationWeights

def toJson (w : SeparationWeights Float) : Value :=
  .object
    [("layer_respect", .float w.layerRespect), ("domain_isolation", .float w.domainIsolation)]

def decode : Decoder (SeparationWeights Float) :=
  record "SeparationWeights" <|
    SeparationWeights.mk <$> fieldD "layer_respect" (standard Float).layerRespect float
      <*> fieldD "domain_isolation" (standard Float).domainIsolation float

end SeparationWeights

namespace HidingWeights

def toJson (w : HidingWeights Float) : Value :=
  .object
    [("private_ratio", .float w.privateRatio),
     ("abstraction", .float w.abstraction),
     ("boundary_clarity", .float w.boundaryClarity)]

def decode : Decoder (HidingWeights Float) :=
  record "HidingWeights" <|
    HidingWeights.mk <$> fieldD "private_ratio" (standard Float).privateRatio float
      <*> fieldD "abstraction" (standard Float).abstraction float
      <*> fieldD "boundary_clarity" (standard Float).boundaryClarity float

end HidingWeights

namespace InversionWeights

def toJson (w : InversionWeights Float) : Value :=
  .object
    [("abstraction", .float w.abstraction),
     ("injection", .float w.injection),
     ("inversion_ratio", .float w.inversionRatio)]

def decode : Decoder (InversionWeights Float) :=
  record "InversionWeights" <|
    InversionWeights.mk <$> fieldD "abstraction" (standard Float).abstraction float
      <*> fieldD "injection" (standard Float).injection float
      <*> fieldD "inversion_ratio" (standard Float).inversionRatio float

end InversionWeights

namespace HealthWeights

def toJson (w : HealthWeights Float) : Value :=
  .object
    [("separation_of_concerns", .float w.separationOfConcerns),
     ("information_hiding", .float w.informationHiding),
     ("dependency_inversion", .float w.dependencyInversion)]

def decode : Decoder (HealthWeights Float) :=
  record "HealthWeights" <|
    HealthWeights.mk <$> fieldD "separation_of_concerns" (standard Float).separationOfConcerns float
      <*> fieldD "information_hiding" (standard Float).informationHiding float
      <*> fieldD "dependency_inversion" (standard Float).dependencyInversion float

end HealthWeights

namespace IntentConfig

def toJson (c : IntentConfig Float) : Value :=
  .object
    [("separation", c.separationWeights.toJson),
     ("hiding", c.hidingWeights.toJson),
     ("inversion", c.inversionWeights.toJson),
     ("health", c.healthWeights.toJson),
     ("gap_threshold", .float c.gapThreshold)]

def decode : Decoder (IntentConfig Float) :=
  record "IntentConfig" <|
    IntentConfig.mk <$> fieldD "separation" (.standard Float) SeparationWeights.decode
      <*> fieldD "hiding" (.standard Float) HidingWeights.decode
      <*> fieldD "inversion" (.standard Float) InversionWeights.decode
      <*> fieldD "health" (.standard Float) HealthWeights.decode
      <*> fieldD "gap_threshold" (standard Float).gapThreshold float

end IntentConfig

namespace StyleConfig

def toJson (c : StyleConfig Float) : Value :=
  .object
    [("confidence_threshold", .float c.confidenceThreshold),
     ("hybrid_margin", .float c.hybridMargin),
     ("min_classified_components", .natural c.minClassifiedComponents),
     ("full_coverage", .float c.fullCoverage)]

def decode : Decoder (StyleConfig Float) :=
  record "StyleConfig" <|
    StyleConfig.mk <$> fieldD "confidence_threshold" (standard Float).confidenceThreshold float
      <*> fieldD "hybrid_margin" (standard Float).hybridMargin float
      <*> fieldD "min_classified_components" (standard Float).minClassifiedComponents word
      <*> fieldD "full_coverage" (standard Float).fullCoverage float

end StyleConfig

namespace GodComponentLimits

def toJson (l : GodComponentLimits) : Value :=
  .object
    [("loc", .natural l.loc),
     ("efferent", .natural l.efferent),
     ("exported_symbols", .natural l.exportedSymbols)]

def decode : Decoder GodComponentLimits :=
  record "GodComponentThresholds" <|
    GodComponentLimits.mk <$> fieldD "loc" standard.loc word
      <*> fieldD "efferent" standard.efferent word
      <*> fieldD "exported_symbols" standard.exportedSymbols word

end GodComponentLimits

namespace AntiPatternConfig

def toJson (c : AntiPatternConfig Float) : Value :=
  .object
    [("coupling_percentile", .float c.couplingPercentile),
     ("coupling_floor", .natural c.couplingFloor),
     ("coupling_cap", .natural c.couplingCap),
     ("god_component", c.godComponent.toJson)]

def decode : Decoder (AntiPatternConfig Float) :=
  record "AntiPatternConfig" <|
    AntiPatternConfig.mk
      <$> fieldD "coupling_percentile" (standard Float).couplingPercentile float
      <*> fieldD "coupling_floor" (standard Float).couplingFloor word
      <*> fieldD "coupling_cap" (standard Float).couplingCap word
      <*> fieldD "god_component" .standard GodComponentLimits.decode

end AntiPatternConfig

namespace Config

def toJson (c : Config Float) : Value :=
  .object
    [("layers", c.layers.toJson),
     ("intents", c.intents.toJson),
     ("styles", c.styles.toJson),
     ("anti_patterns", c.antiPatterns.toJson)]

def decode : Decoder (Config Float) :=
  record "Config" <|
    Config.mk <$> fieldD "layers" .standard LayerPatterns.decode
      <*> fieldD "intents" (.standard Float) IntentConfig.decode
      <*> fieldD "styles" (.standard Float) StyleConfig.decode
      <*> fieldD "anti_patterns" (.standard Float) AntiPatternConfig.decode

end Config

end ArchAudit
