-- SUMMARY: Configurations and records that come from files.
import ArchAudit.Analysis.Pipeline
import ArchAudit.Component.Codec
import ArchAudit.Config.Document

/-!
# Files

What a file holds is given as bytes, or as nothing if there is no such file. An
error tells what was being done with the file, and why that failed.
-/

namespace ArchAudit

/-- Why a file has no text. -/
inductive FileProblem where
  | missing
  | notUtf8
deriving DecidableEq, Repr

def FileProblem.message : FileProblem → String
  | .missing => "No such file or directory (os error 2)"
  | .notUtf8 => "stream did not contain valid UTF-8"

/-- The text of a file, given its bytes if it exists. -/
def fileText (content : Option ByteArray) : Except FileProblem String :=
  match content with
  | none => .error .missing
  | some bytes =>
    match String.fromUTF8? bytes with
    | some text => .ok text
    | none => .error .notUtf8

/-- An error with what was being done when it occurred. -/
structure InContext (ε : Type) where
  context : String
  cause : FileProblem ⊕ ε

/-- Reads the configuration in a file. -/
def Config.load (path : String) (content : Option ByteArray) :
    Except (InContext (ConfigError Float)) (Config Float) :=
  match fileText content with
  | .error problem => .error ⟨"failed to read config file " ++ inQuotes path, .inl problem⟩
  | .ok text =>
    match Config.parse text with
    | .error e => .error ⟨"invalid configuration in " ++ inQuotes path, .inr e⟩
    | .ok config => .ok config

/-- Reads the records in a file. -/
def ComponentRecord.load (path : String) (content : Option ByteArray) :
    Except (InContext Json.Fault) (List ComponentRecord) :=
  match fileText content with
  | .error problem => .error ⟨"failed to read component records " ++ inQuotes path, .inl problem⟩
  | .ok text =>
    match ComponentRecord.parse text with
    | .error fault => .error ⟨"invalid component records in " ++ inQuotes path, .inr fault⟩
    | .ok records => .ok records

/-- What an analysis says of a record file that has no text. -/
def unreadableSourceMessage (path : String) (problem : FileProblem) : String :=
  "failed to read component records from " ++ inQuotes path ++ ": " ++ problem.message

/-- Wording of malformed records, if their fault has one. -/
def malformedMessage? : Json.Fault → Option String
  | .text _ => none
  | .shape mismatch => some ("malformed component records: " ++ mismatch.message)

end ArchAudit
