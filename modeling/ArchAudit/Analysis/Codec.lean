-- SUMMARY: JSON forms of recommendations and reports.
import ArchAudit.Analysis.Report
import ArchAudit.Graph.Codec
import ArchAudit.Intent.Codec
import ArchAudit.Style.Codec

namespace ArchAudit

open Json

namespace Recommendation

def toJson (r : Recommendation) : Value :=
  .object
    [("text", .string r.text),
     ("related_violations", .strings r.relatedViolations),
     ("category", .ofNamed r.category),
     ("priority", .ofNamed r.priority),
     ("affected_components", .strings r.affectedComponents)]

def decode : Decoder Recommendation :=
  record "Recommendation" <|
    Recommendation.mk <$> field "text" string
      <*> field "related_violations" (list string)
      <*> field "category" (choice Named.table)
      <*> field "priority" (choice Named.table)
      <*> field "affected_components" (list string)

end Recommendation

namespace Report

def toJson (r : Report Float) : Value :=
  .object
    [("graph", r.graph.toJson),
     ("intents", .array (r.intents.map IntentResult.toJson)),
     ("styles", .array (r.styles.map StyleResult.toJson)),
     ("violations", .array (r.violations.map Violation.toJson)),
     ("recommendations", .array (r.recommendations.map Recommendation.toJson)),
     ("overall_health_score", .float r.overallHealthScore),
     ("classification", r.classification.toJson),
     ("diagnostics", .array (r.diagnostics.map Diagnostic.toJson))]

def decode : Decoder (Report Float) :=
  record "AnalysisReport" <|
    Report.mk <$> field "graph" Graph.decode
      <*> field "intents" (list IntentResult.decode)
      <*> field "styles" (list StyleResult.decode)
      <*> field "violations" (list Violation.decode)
      <*> field "recommendations" (list Recommendation.decode)
      <*> field "overall_health_score" float
      <*> field "classification" Classification.decode
      <*> fieldD "diagnostics" [] (list Diagnostic.decode)

/-- The JSON text of a report. -/
def render (r : Report Float) : String :=
  r.toJson.pretty

/-- The report of a JSON text. -/
def parse (text : String) : Except Fault (Report Float) :=
  decodeText decode text

end Report

end ArchAudit
