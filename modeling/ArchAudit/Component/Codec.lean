-- SUMMARY: JSON forms of component records and of components.
import ArchAudit.Component.Basic
import ArchAudit.Json.Decode
import ArchAudit.Json.Value

/-!
# Components in JSON

A reference is written as an object. It may also be given as the bare text of its
target, which means an import without symbols, or with its kind and symbols left
out.
-/

namespace ArchAudit

open Json

-- ---------------------------------------------------------------------------
-- References
-- ---------------------------------------------------------------------------

/-- Levels of nesting left inside a reference of a record. -/
def referenceRoom : Nat := 124

namespace Reference

def toJson (r : Reference) : Value :=
  .object
    [("target", .string r.target), ("kind", .ofNamed r.kind), ("symbols", .strings r.symbols)]

def fields : Fields Reference :=
  Reference.mk <$> field "target" string
    <*> fieldD "kind" .imports (wholeChoice unit Named.table)
    <*> fieldD "symbols" [] (list string)

/-- Reads a reference that is well-formed JSON. -/
def ofWhole : Decoder Reference
  | .string (some target) => .ok ⟨target, .imports, []⟩
  | .object members ending => fields.ofMembers members ending
  | _ => .error (.shape (.noAlternative "RawReferenceRepr"))

/-- A reference is read whole before it is given a meaning, so that any wrong shape
    has one and the same message. -/
def decode : Decoder Reference := fun node => do
  node.readWhole referenceRoom
  match ofWhole node with
  | .ok r => return r
  | .error _ => throw (.shape (.noAlternative "RawReferenceRepr"))

end Reference

-- ---------------------------------------------------------------------------
-- Records
-- ---------------------------------------------------------------------------

namespace ComponentRecord

def toJson (r : ComponentRecord) : Value :=
  .object
    [("component_id", .string r.componentId),
     ("display_name", .string r.displayName),
     ("file_path", .string r.filePath),
     ("loc", .natural r.loc),
     ("exported_symbols", .ofNameSet r.exportedSymbols),
     ("private_symbols", .ofNameSet r.privateSymbols),
     ("raw_dependency_references", .array (r.references.map Reference.toJson)),
     ("declares_abstraction", .bool r.declaresAbstraction),
     ("uses_dependency_injection", .bool r.usesDependencyInjection)]

def fields : Fields ComponentRecord :=
  ComponentRecord.mk <$> field "component_id" string
    <*> field "display_name" string
    <*> field "file_path" string
    <*> field "loc" word
    <*> field "exported_symbols" nameSet
    <*> field "private_symbols" nameSet
    <*> field "raw_dependency_references" (list Reference.decode)
    <*> field "declares_abstraction" boolean
    <*> field "uses_dependency_injection" boolean

def decode : Decoder ComponentRecord := record "ComponentRecord" fields

/-- The records of a JSON text. -/
def parse (text : String) : Except Fault (List ComponentRecord) :=
  decodeText (list decode) text

/-- The JSON text of records. -/
def render (records : List ComponentRecord) : String :=
  (Value.array (records.map toJson)).compact

end ComponentRecord

-- ---------------------------------------------------------------------------
-- Components
-- ---------------------------------------------------------------------------

namespace Metrics

def toJson (m : Metrics Float) : Value :=
  .object
    [("afferent", .natural m.afferent),
     ("efferent", .natural m.efferent),
     ("degree_centrality", .float m.degreeCentrality),
     ("betweenness_centrality", .float m.betweennessCentrality),
     ("instability", .float m.instability)]

def decode : Decoder (Metrics Float) :=
  record "ComponentMetrics" <|
    Metrics.mk <$> field "afferent" word
      <*> field "efferent" word
      <*> field "degree_centrality" float
      <*> field "betweenness_centrality" float
      <*> field "instability" float

end Metrics

namespace Component

def toJson (c : Component Float) : Value :=
  .object
    [("id", .string c.id),
     ("name", .string c.name),
     ("file_path", .string c.filePath),
     ("loc", .natural c.loc),
     ("exported_symbols", .ofNameSet c.exportedSymbols),
     ("private_symbols", .ofNameSet c.privateSymbols),
     ("declares_abstraction", .bool c.declaresAbstraction),
     ("uses_dependency_injection", .bool c.usesDependencyInjection),
     ("metrics", c.metrics.toJson)]

def decode : Decoder (Component Float) :=
  record "Component" <|
    Component.mk <$> field "id" string
      <*> field "name" string
      <*> field "file_path" string
      <*> field "loc" word
      <*> field "exported_symbols" nameSet
      <*> field "private_symbols" nameSet
      <*> field "declares_abstraction" boolean
      <*> field "uses_dependency_injection" boolean
      <*> field "metrics" Metrics.decode

end Component

end ArchAudit
