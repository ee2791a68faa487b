-- SUMMARY: JSON forms of intent results.
import ArchAudit.Intent.Basic
import ArchAudit.Json.Decode
import ArchAudit.Json.Value

namespace ArchAudit

open Json

namespace Evidence

def toJson (e : Evidence) : Value :=
  .object
    [("components", .strings e.components),
     ("justification", .string e.justification),
     ("signal", .ofNamed e.signal)]

def decode : Decoder Evidence :=
  record "Evidence" <|
    Evidence.mk <$> field "components" (list string)
      <*> field "justification" string
      <*> field "signal" (choice Named.table)

end Evidence

namespace IntentResult

def toJson (r : IntentResult Float) : Value :=
  .object
    [("kind", .ofNamed r.kind),
     ("score", .float r.score),
     ("evidence", .array (r.evidence.map Evidence.toJson)),
     ("insufficient_data", .bool r.insufficientData),
     ("metrics", .ofNameMap .float r.metrics)]

def decode : Decoder (IntentResult Float) :=
  record "IntentResult" <|
    IntentResult.mk <$> field "kind" (choice Named.table)
      <*> field "score" float
      <*> field "evidence" (list Evidence.decode)
      <*> field "insufficient_data" boolean
      <*> fieldD "metrics" .empty (nameMap float)

end IntentResult

end ArchAudit
