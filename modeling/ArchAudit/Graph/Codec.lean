-- SUMMARY: JSON forms of graphs, cycle groups and diagnostics.
import ArchAudit.Component.Codec
import ArchAudit.Graph.Build

namespace ArchAudit

open Json

namespace Edge

def toJson (e : Edge) : Value :=
  .object
    [("source", .string e.source),
     ("target", .string e.target),
     ("kind", .ofNamed e.kind),
     ("weight", .natural e.weight),
     ("symbols", .ofNameSet e.symbols)]

def decode : Decoder Edge :=
  record "Edge" <|
    Edge.mk <$> field "source" string
      <*> field "target" string
      <*> field "kind" (choice Named.table)
      <*> field "weight" word
      <*> fieldD "symbols" .empty nameSet

end Edge

namespace Graph

def toJson (g : Graph Float) : Value :=
  .object
    [("components", .array (g.components.map Component.toJson)),
     ("edges", .array (g.edges.map Edge.toJson))]

def decode : Decoder (Graph Float) :=
  record "GraphSnapshot" <|
    Graph.mk <$> field "components" (list Component.decode)
      <*> field "edges" (list Edge.decode)

end Graph

namespace CycleGroup

def toJson (c : CycleGroup) : Value :=
  .object [("members", .strings c.members), ("internal_weight", .natural c.internalWeight)]

def decode : Decoder CycleGroup :=
  record "CycleGroup" <|
    CycleGroup.mk <$> field "members" (list string) <*> field "internal_weight" word

end CycleGroup

namespace Diagnostic

def toJson (d : Diagnostic) : Value :=
  .object
    [("kind", .ofNamed d.kind),
     ("component", .string d.component),
     ("reference", .string d.reference),
     ("message", .string d.message)]

def decode : Decoder Diagnostic :=
  record "Diagnostic" <|
    Diagnostic.mk <$> field "kind" (choice Named.table)
      <*> field "component" string
      <*> field "reference" string
      <*> field "message" string

end Diagnostic

end ArchAudit
