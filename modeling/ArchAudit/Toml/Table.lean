-- SUMMARY: Tables of a TOML document while it is being read.
import ArchAudit.Toml.Value

/-!
# Tables under construction

How a table came about decides how it may be extended: a table that a header opened
cannot be opened again or extended by dotted keys, one that dotted keys made can be
extended but not opened, and a finished value cannot be extended at all.
-/

namespace ArchAudit.Toml

/-- How a table came about. -/
inductive Origin where
  /-- A header opened it. -/
  | header
  /-- The header of a table below it mentioned it. -/
  | mentioned
  /-- Dotted keys made it. -/
  | dotted
deriving DecidableEq, Repr

inductive Item where
  | value (v : Value)
  | table (origin : Origin) (entries : List (String × Item))
  /-- Tables that headers in double brackets opened, the last one first. -/
  | tables (last : List (String × Item)) (earlier : List (List (String × Item)))
deriving Repr

abbrev Entries := List (String × Item)

/-- Replaces the item of a key. -/
def replaceItem (entries : Entries) (key : String) (item : Item) : Entries :=
  entries.map fun e => if e.1 = key then (key, item) else e

/-- Assigns a value to a dotted key. The tables that its path leads through count as
    made by dotted keys from then on, so if one was only mentioned so far, no header
    can open it any more. The path may lead through the last table of an array, but
    not end there. -/
def assign (v : Value) : List String → Entries → Option Entries
  | [], _ => none
  | [key], entries =>
    match entries.lookup key with
    | none => some (entries ++ [(key, .value v)])
    | some _ => none
  | key :: next :: path, entries =>
    match entries.lookup key with
    | none => do
      let below ← assign v (next :: path) []
      return entries ++ [(key, .table .dotted below)]
    | some (.table .dotted below) => do
      return replaceItem entries key (.table .dotted (← assign v (next :: path) below))
    | some (.table .mentioned below) => do
      return replaceItem entries key (.table .dotted (← assign v (next :: path) below))
    | some (.tables current earlier) => do
      if path.isEmpty then none
      return replaceItem entries key (.tables (← assign v (next :: path) current) earlier)
    | some _ => none

/-- Assigns values in order. -/
def assignAll (pairs : List (List String × Value)) (entries : Entries) : Option Entries :=
  pairs.foldlM (fun entries (path, v) => assign v path entries) entries

/-- Changes the entries at the table that a header's path ends at; `last` treats the
    final key. -/
def descend (last : String → Entries → Option Entries) : List String → Entries → Option Entries
  | [], _ => none
  | [key], entries => last key entries
  | key :: next :: path, entries =>
    match entries.lookup key with
    | none => do
      let below ← descend last (next :: path) []
      return entries ++ [(key, .table .mentioned below)]
    | some (.table origin below) => do
      return replaceItem entries key (.table origin (← descend last (next :: path) below))
    | some (.tables current earlier) => do
      return replaceItem entries key (.tables (← descend last (next :: path) current) earlier)
    | some (.value _) => none

/-- Opens a table and fills it. -/
def openTable (pairs : List (List String × Value)) (key : String) (entries : Entries) :
    Option Entries :=
  match entries.lookup key with
  | none => do return entries ++ [(key, .table .header (← assignAll pairs []))]
  | some (.table .mentioned below) => do
    return replaceItem entries key (.table .header (← assignAll pairs below))
  | some _ => none

/-- Adds a table to an array of tables and fills it. -/
def pushTable (pairs : List (List String × Value)) (key : String) (entries : Entries) :
    Option Entries := do
  let fresh ← assignAll pairs []
  match entries.lookup key with
  | none => return entries ++ [(key, .tables fresh [])]
  | some (.tables current earlier) =>
    return replaceItem entries key (.tables fresh (current :: earlier))
  | some _ => none

mutual

/-- The finished value. -/
def Item.toValue : Item → Value
  | .value v => v
  | .table _ entries => .table (entryValues entries)
  | .tables last earlier => .array (rowValues earlier [.table (entryValues last)])

def entryValues : List (String × Item) → List (String × Value)
  | [] => []
  | (key, item) :: entries => (key, item.toValue) :: entryValues entries

/-- Puts the earlier tables, given last one first, before the others. -/
def rowValues : List (List (String × Item)) → List Value → List Value
  | [], done => done
  | entries :: earlier, done => rowValues earlier (.table (entryValues entries) :: done)

end

end ArchAudit.Toml
