-- SUMMARY: The default configuration as a commented document.

namespace ArchAudit.Config

/-- The lines of a document that states every parameter with its default. -/
def standardLines : List String :=
  ["# archlens - architectural graph analysis configuration",
   "",
   "[layers]",
   "# Glob patterns used to group components into layers for separation of concerns",
   "domain = [\"**/domain/**\", \"**/entity/**\", \"**/entities/**\", \"**/model/**\", \"**/models/**\"]",
   "application = [\"**/application/**\", \"**/usecase/**\", \"**/usecases/**\", \"**/service/**\", \"**/services/**\"]",
   "infrastructure = [\"**/infrastructure/**\", \"**/adapter/**\", \"**/adapters/**\", \"**/repository/**\", \"**/repositories/**\", \"**/persistence/**\"]",
   "presentation = [\"**/presentation/**\", \"**/handler/**\", \"**/handlers/**\", \"**/controller/**\", \"**/controllers/**\", \"**/api/**\", \"**/cmd/**\"]",
   "",
   "[intents]",
   "# Intents scoring below this produce a recommendation",
   "gap_threshold = 0.5",
   "",
   "[intents.separation]",
   "layer_respect = 0.5",
   "domain_isolation = 0.5",
   "",
   "[intents.hiding]",
   "private_ratio = 0.4",
   "abstraction = 0.3",
   "boundary_clarity = 0.3",
   "",
   "[intents.inversion]",
   "abstraction = 0.3",
   "injection = 0.3",
   "inversion_ratio = 0.4",
   "",
   "[intents.health]",
   "# Normalized by their sum; equal weights by default",
   "separation_of_concerns = 1.0",
   "information_hiding = 1.0",
   "dependency_inversion = 1.0",
   "",
   "[styles]",
   "confidence_threshold = 0.4",
   "hybrid_margin = 0.15",
   "min_classified_components = 2",
   "full_coverage = 0.6",
   "",
   "[anti_patterns]",
   "coupling_percentile = 0.9",
   "coupling_floor = 3",
   "coupling_cap = 20",
   "",
   "[anti_patterns.god_component]",
   "loc = 500",
   "efferent = 15",
   "exported_symbols = 20"]

/-- A document that states every parameter with its default. -/
def standardDocument : String :=
  String.join (standardLines.map (· ++ "\n"))

end ArchAudit.Config
