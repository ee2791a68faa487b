-- SUMMARY: Decoders from JSON trees to values: scalars, lists, maps, enumerations and records of fields.
import ArchAudit.Json.Node
import ArchAudit.Data.Names

/-!
# Decoders

A decoder walks a tree in reading order and stops at the first problem. Records
are described by `Fields`, which reads members in whatever order they come,
refuses a repeated one, skips unknown ones and notices missing ones at the end.
-/

namespace ArchAudit.Json

abbrev Decoder (α : Type) := Node → Except Fault α

-- ---------------------------------------------------------------------------
-- What is there
-- ---------------------------------------------------------------------------

/-- An integer as long as it fits a machine word with its sign; any other number
    counts as floating point. -/
def Numeral.integer? (n : Numeral) : Option Int :=
  if !n.integral then none
  else if n.negative then
    if n.digits ≠ 0 ∧ n.digits ≤ signBit then some (-(n.digits : Int)) else none
  else if n.digits ≤ greatestWord then some n.digits
  else none

/-- Names what stands at a node, reading it as far as needed. -/
def Node.found : Node → Except Fault Found
  | .null => .ok .null
  | .bool b => .ok (.boolean b)
  | .number n => do
    let x ← n.toFloat?
    return match n.integer? with
      | some i => .integer i
      | none => .floating x
  | .string (some s) => .ok (.string s)
  | .string none => .error (.text .malformed)
  | .array _ _ => .ok .sequence
  | .object _ _ => .ok .map
  | .broken s => .error (.text s.read)
  | .absent reason => .error (.text reason)

/-- Refuses a node whose kind is wrong. -/
def refuse {α : Type} (expected : String) (node : Node) : Except Fault α := do
  throw (.shape (.invalidType (← node.found) expected))

-- ---------------------------------------------------------------------------
-- Scalars
-- ---------------------------------------------------------------------------

def string : Decoder String
  | .string (some s) => .ok s
  | node => refuse "a string" node

def boolean : Decoder Bool
  | .bool b => .ok b
  | node => refuse "a boolean" node

def float : Decoder Float
  | .number n => n.toFloat?
  | node => refuse "f64" node

/-- A natural number that fits a machine word. -/
def word : Decoder Nat
  | .number n =>
    match n.integer? with
    | some (.ofNat k) => .ok k
    | some i => .error (.shape (.invalidValue (.integer i) "usize"))
    | none => do
      let x ← n.toFloat?
      throw (.shape (.invalidType (.floating x) "usize"))
  | node => refuse "usize" node

-- ---------------------------------------------------------------------------
-- Collections
-- ---------------------------------------------------------------------------

def list {α : Type} (decode : Decoder α) : Decoder (List α)
  | .array items ending => do
    let values ← items.mapM decode
    ending.inArray
    return values
  | node => refuse "a sequence" node

/-- A set of names, given in any order and with any repeats. -/
def nameSet : Decoder NameSet := fun node =>
  (NameSet.ofList ·) <$> list string node

/-- Adds the members of an object to a map, a later one replacing an earlier. -/
def insertMembers {α : Type} (decode : Decoder α) :
    NameMap α → List (Option String × Node) → Except Fault (NameMap α)
  | acc, [] => .ok acc
  | _, (none, _) :: _ => .error (.text .malformed)
  | acc, (some key, node) :: members => do
    insertMembers decode (acc.insert key (← decode node)) members

/-- A map from names. -/
def nameMap {α : Type} (decode : Decoder α) : Decoder (NameMap α)
  | .object members ending => do
    let entries ← insertMembers decode .empty members
    ending.inObject Stop.read members.isEmpty
    return entries
  | node => refuse "a map" node

-- ---------------------------------------------------------------------------
-- Enumerations
-- ---------------------------------------------------------------------------

/-- The value of a name in a table of spellings. -/
def variant {α : Type} (table : List (String × α)) (name : String) : Except Fault α :=
  match table.lookup name with
  | some a => .ok a
  | none => .error (.shape (.unknownVariant name (table.map (·.1))))

/-- The value of an enumeration's payload, which has to be `null`. -/
def unit : Decoder Unit
  | .null => .ok ()
  | node => refuse "unit" node

/-- A variant is written as its name, or as an object whose one key is the name
    and whose value is `null`. Whatever else stands there is no JSON for it. -/
def choice {α : Type} (table : List (String × α)) : Decoder α
  | .string (some name) => variant table name
  | .object [] ending => do
    ending.inObject Stop.read true
    throw (.text .malformed)
  | .object ((some name, node) :: others) ending => do
    let a ← variant table name
    unit node
    match others, ending with
    | [], .closed => return a
    | [], .cut false none => throw (.text .ended)
    | _, _ => throw (.text .malformed)
  | .broken s => .error (.text (if s.lead = '"' then s.read else .malformed))
  | .absent reason => .error (.text reason)
  | _ => .error (.text .malformed)

/-- A variant or `null`. -/
def choice? {α : Type} (table : List (String × α)) : Decoder (Option α)
  | .null => .ok none
  | .broken s =>
    .error (.text (if s.lead = '"' || s.lead = 'n' then s.read else .malformed))
  | node => some <$> choice table node

-- ---------------------------------------------------------------------------
-- Values that have been read whole
-- ---------------------------------------------------------------------------

/-- An enumeration's payload that may also be left empty. -/
def emptyUnit : Decoder Unit
  | .null => .ok ()
  | .object [] _ => .ok ()
  | node => refuse "unit" node

/-- A variant in a value that has been read whole, with what its payload may be. -/
def wholeChoice {α : Type} (payload : Decoder Unit) (table : List (String × α)) : Decoder α
  | .string (some name) => variant table name
  | .object [(some name, node)] _ => do
    let a ← variant table name
    payload node
    return a
  | .object _ _ => .error (.shape (.invalidValue .map "map with a single key"))
  | node => refuse "string or map" node

-- ---------------------------------------------------------------------------
-- Records
-- ---------------------------------------------------------------------------

/-- How the fields of a record are read. -/
structure Fields (α : Type) where
  /-- What has been read so far. -/
  State : Type
  start : State
  names : List String
  /-- Reads the member of a name, unless the name is not one of the fields. -/
  read : State → String → Node → Option (Except Fault State)
  /-- The record, or what `report` says of the first field that is missing. -/
  finish : (String → Fault) → State → Except Fault α

namespace Fields

variable {α β : Type}

/-- One field, with what to do if it is missing. -/
def one (name : String) (decode : Decoder α) (missing : Option α) : Fields α where
  State := Option α
  start := none
  names := [name]
  read state key node :=
    if key = name then
      match state with
      | some _ => some (.error (.shape (.duplicateField name)))
      | none => some (some <$> decode node)
    else none
  finish report state :=
    match state, missing with
    | some a, _ => .ok a
    | none, some a => .ok a
    | none, none => .error (report name)

/-- The fields of two records side by side. -/
def pair (f : Fields α) (g : Fields β) : Fields (α × β) where
  State := f.State × g.State
  start := (f.start, g.start)
  names := f.names ++ g.names
  read state key node :=
    match f.read state.1 key node with
    | some r => some (r.map (·, state.2))
    | none => (g.read state.2 key node).map fun r => r.map (state.1, ·)
  finish report state := do
    let a ← f.finish report state.1
    let b ← g.finish report state.2
    return (a, b)

def map (h : α → β) (f : Fields α) : Fields β :=
  { f with finish := fun report state => h <$> f.finish report state }

/-- No fields. -/
def pure (a : α) : Fields α where
  State := Unit
  start := ()
  names := []
  read _ _ _ := none
  finish _ _ := .ok a

instance : Functor Fields where
  map := map

instance : Applicative Fields where
  pure := pure
  seq f g := map (fun p => p.1 p.2) (pair f (g ()))

/-- Reads the members of an object in order. -/
def readMembers (f : Fields α) : f.State → List (Option String × Node) → Except Fault f.State
  | state, [] => .ok state
  | _, (none, _) :: _ => .error (.text .malformed)
  | state, (some key, node) :: members =>
    match f.read state key node with
    | some r => do readMembers f (← r) members
    | none => do
      node.skip
      readMembers f state members

/-- Reads the items of an array as the fields of these names, as many as there
    are, and returns the items that are left over. -/
def readItems (f : Fields α) :
    List String → f.State → List Node → Except Fault (f.State × Bool × List Node)
  | [], state, items => .ok (state, true, items)
  | _ :: _, state, [] => .ok (state, false, [])
  | name :: names, state, item :: items => do
    let state ← (f.read state name item).getD (.ok state)
    readItems f names state items

/-- What an array of the wrong length should have been. -/
def expectation (name : String) (count : Nat) : String :=
  name ++ " with " ++ toString count ++ (if count = 1 then " element" else " elements")

/-- The record from the items of an array, in the order of the fields. -/
def ofItems (f : Fields α) (name : String) (items : List Node) (ending : Ending) :
    Except Fault α := do
  let (state, full, rest) ← f.readItems f.names f.start items
  let report (field : String) : Fault :=
    .shape (.invalidLength (f.names.idxOf field) (expectation name f.names.length))
  if full then
    let a ← f.finish report state
    match rest, ending with
    | [], .closed => return a
    | [], .cut false none => throw (.text .ended)
    | _, _ => throw (.text .malformed)
  else
    ending.inArray
    f.finish report state

/-- The record from the members of an object. -/
def ofMembers (f : Fields α) (members : List (Option String × Node)) (ending : Ending) :
    Except Fault α := do
  let state ← f.readMembers f.start members
  ending.inObject Stop.read members.isEmpty
  f.finish (fun name => .shape (.missingField name)) state

end Fields

/-- A required field. -/
def field {α : Type} (name : String) (decode : Decoder α) : Fields α :=
  Fields.one name decode none

/-- A field that may be left out. -/
def fieldD {α : Type} (name : String) (missing : α) (decode : Decoder α) : Fields α :=
  Fields.one name decode (some missing)

/-- A record, written as an object or as the array of its fields. -/
def record {α : Type} (name : String) (fields : Fields α) : Decoder α
  | .object members ending => fields.ofMembers members ending
  | .array items ending => fields.ofItems ("struct " ++ name) items ending
  | node => refuse ("struct " ++ name) node

/-- Decodes a whole text: nothing may follow the value. -/
def decodeText {α : Type} (decode : Decoder α) (text : String) : Except Fault α := do
  let document := Document.ofText text
  let a ← decode document.root
  if document.trailing then throw (.text .malformed)
  return a

end ArchAudit.Json
