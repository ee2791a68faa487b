-- SUMMARY: JSON text as a tree that keeps the place where the text stops being JSON.
import ArchAudit.Json.Token

/-!
# Nodes

`Document.ofText` turns any text into a tree. Where the text breaks off, the tree
holds what a decoder will meet there, so that a decoder which walks the tree in
order reports the first problem in reading order, whether it is one of text or of
shape. `run` builds the tree token by token with an explicit stack of open
containers; `step` is one transition.
-/

namespace ArchAudit.Json

/-- How a container ends. -/
inductive Ending where
  | closed
  /-- The closing bracket is missing; `next` is the token that stands there
      instead, and `comma` tells that a comma has just been read. -/
  | cut (comma : Bool) (next : Option Token)
deriving DecidableEq, Repr

/-- A JSON value, or what stands in its place. -/
inductive Node where
  | null
  | bool (b : Bool)
  | number (n : Numeral)
  | string (s : Option String)
  | array (items : List Node) (ending : Ending)
  | object (members : List (Option String × Node)) (ending : Ending)
  /-- Text that is no value. -/
  | broken (s : Stop)
  /-- No text that could be a value: it ends here, or a colon is missing. -/
  | absent (reason : Reason)
deriving Repr

/-- A value and whether text follows it. -/
structure Document where
  root : Node
  trailing : Bool
deriving Repr

-- ---------------------------------------------------------------------------
-- Building
-- ---------------------------------------------------------------------------

/-- A container that is still open, with what it holds so far in reverse. -/
inductive Frame where
  | array (items : List Node)
  | object (members : List (Option String × Node)) (key : Option String)
deriving Repr

/-- What is due next. -/
inductive Mode where
  | value
  | firstItem
  | item
  | firstKey
  | key (members : List (Option String × Node))
  | colon (members : List (Option String × Node)) (key : Option String)
  | separator
  | done (root : Node)
deriving Repr

/-- Closes all open containers around a node that ends the text. -/
def collapse : List Frame → Node → Node
  | [], node => node
  | .array items :: frames, node =>
    collapse frames (.array (items.reverse ++ [node]) (.cut false none))
  | .object members key :: frames, node =>
    collapse frames (.object (members.reverse ++ [(key, node)]) (.cut false none))

/-- The result of a transition. -/
inductive Next where
  | go (mode : Mode) (frames : List Frame)
  | halt (root : Node)
deriving Repr

/-- Hands a finished value to the container around it. -/
def deliver (frames : List Frame) (node : Node) : Next :=
  match frames with
  | [] => .go (.done node) []
  | .array items :: frames => .go .separator (.array (node :: items) :: frames)
  | .object members key :: frames =>
    .go .separator (.object ((key, node) :: members) none :: frames)

/-- A value is due. -/
def stepValue (frames : List Frame) : Token → Next
  | .null => deliver frames .null
  | .bool b => deliver frames (.bool b)
  | .number n => deliver frames (.number n)
  | .string s => deliver frames (.string s)
  | .bracketOpen => .go .firstItem frames
  | .braceOpen => .go .firstKey frames
  | .stop s => .halt (collapse frames (.broken s))
  | .braceClose => .halt (collapse frames (.broken ⟨'\x7d', .malformed, .malformed⟩))
  | .bracketClose => .halt (collapse frames (.broken ⟨']', .malformed, .malformed⟩))
  | .comma => .halt (collapse frames (.broken ⟨',', .malformed, .malformed⟩))
  | .colon => .halt (collapse frames (.broken ⟨':', .malformed, .malformed⟩))

/-- A container ends without its closing bracket. -/
def cutShort (frames : List Frame) (comma : Bool) (next : Option Token) : Node :=
  match frames with
  | [] => .absent .malformed
  | .array items :: frames => collapse frames (.array items.reverse (.cut comma next))
  | .object members _ :: frames => collapse frames (.object members.reverse (.cut comma next))

/-- A comma or the closing bracket of the innermost container is due. -/
def stepSeparator (frames : List Frame) (token : Token) : Next :=
  match frames, token with
  | .array items :: frames, .bracketClose => deliver frames (.array items.reverse .closed)
  | .object members _ :: frames, .braceClose => deliver frames (.object members.reverse .closed)
  | .array items :: frames, .comma => .go .item (.array items :: frames)
  | .object members _ :: frames, .comma => .go (.key members) frames
  | frames, token => .halt (cutShort frames false (some token))

/-- One transition. -/
def step (mode : Mode) (frames : List Frame) (token : Token) : Next :=
  match mode with
  | .value => stepValue frames token
  | .firstItem =>
    if token = .bracketClose then deliver frames (.array [] .closed)
    else stepValue (.array [] :: frames) token
  | .item =>
    if token = .bracketClose then .halt (cutShort frames true (some token))
    else stepValue frames token
  | .firstKey =>
    match token with
    | .braceClose => deliver frames (.object [] .closed)
    | .string key => .go (.colon [] key) frames
    | token => .halt (collapse frames (.object [] (.cut false (some token))))
  | .key members =>
    match token with
    | .string key => .go (.colon members key) frames
    | token => .halt (collapse frames (.object members.reverse (.cut true (some token))))
  | .colon members key =>
    if token = .colon then .go .value (.object members key :: frames)
    else .halt (collapse (.object members key :: frames) (.absent .malformed))
  | .separator => stepSeparator frames token
  | .done root => .halt root

/-- The tree when the text ends. -/
def finish (mode : Mode) (frames : List Frame) : Node :=
  match mode with
  | .value => collapse frames (.absent .ended)
  | .firstItem => collapse frames (.array [] (.cut false none))
  | .item => cutShort frames true none
  | .firstKey => collapse frames (.object [] (.cut false none))
  | .key members => collapse frames (.object members.reverse (.cut true none))
  | .colon members key => collapse (.object members key :: frames) (.absent .ended)
  | .separator => cutShort frames false none
  | .done root => root

/-- Whether the root is complete, so that a further token is text after it. -/
def Mode.isDone : Mode → Bool
  | .done _ => true
  | _ => false

/-- Builds the tree of a list of tokens. -/
def run (mode : Mode) (frames : List Frame) : List Token → Document
  | [] => ⟨finish mode frames, false⟩
  | token :: rest =>
    match step mode frames token with
    | .go mode frames => run mode frames rest
    | .halt root => ⟨root, mode.isDone⟩

/-- The tree of a text. -/
def Document.ofText (text : String) : Document :=
  run .value [] (tokens text.toList)

-- ---------------------------------------------------------------------------
-- Reading through
-- ---------------------------------------------------------------------------

/-- What a missing closing bracket is reported as inside an array. -/
def Ending.inArray : Ending → Except Fault Unit
  | .closed => .ok ()
  | .cut _ none => .error (.text .ended)
  | .cut _ (some _) => .error (.text .malformed)

/-- What a missing closing bracket is reported as inside an object. Where a key is
    due, a string that breaks off is reported as `view` tells. -/
def Ending.inObject (view : Stop → Reason) (empty : Bool) : Ending → Except Fault Unit
  | .closed => .ok ()
  | .cut _ none => .error (.text .ended)
  | .cut comma (some (.stop s)) =>
    .error (.text (if (comma || empty) && s.lead = '"' then view s else .malformed))
  | .cut _ (some _) => .error (.text .malformed)

mutual

/-- Passes over a value without decoding its strings and numbers. -/
def Node.skip : Node → Except Fault Unit
  | .array items ending => do
    skipItems items
    ending.inArray
  | .object members ending => do
    skipMembers members
    ending.inObject Stop.skip members.isEmpty
  | .broken s => .error (.text s.skip)
  | .absent reason => .error (.text reason)
  | .null => .ok ()
  | .bool _ => .ok ()
  | .number _ => .ok ()
  | .string _ => .ok ()

def skipItems : List Node → Except Fault Unit
  | [] => .ok ()
  | node :: nodes => do
    node.skip
    skipItems nodes

def skipMembers : List (Option String × Node) → Except Fault Unit
  | [] => .ok ()
  | (_, node) :: members => do
    node.skip
    skipMembers members

end

/-- The number, unless it is too large for binary64. -/
def Numeral.toFloat? (n : Numeral) : Except Fault Float :=
  let x := n.toDecimal.toFloat
  if x.isFinite then .ok x else .error (.text .malformed)

mutual

/-- Reads a value whole, of whatever shape, with at most `room` further levels of
    nesting. -/
def Node.readWhole (room : Nat) : Node → Except Fault Unit
  | .array items ending =>
    match room with
    | 0 => .error (.text .malformed)
    | room + 1 => do
      readItems room items
      ending.inArray
  | .object members ending =>
    match room with
    | 0 => .error (.text .malformed)
    | room + 1 => do
      readMembers room members
      ending.inObject Stop.read members.isEmpty
  | .broken s => .error (.text s.read)
  | .absent reason => .error (.text reason)
  | .number n => n.toFloat?.map fun _ => ()
  | .string none => .error (.text .malformed)
  | .string (some _) => .ok ()
  | .null => .ok ()
  | .bool _ => .ok ()

def readItems (room : Nat) : List Node → Except Fault Unit
  | [] => .ok ()
  | node :: nodes => do
    node.readWhole room
    readItems room nodes

def readMembers (room : Nat) : List (Option String × Node) → Except Fault Unit
  | [] => .ok ()
  | (none, _) :: _ => .error (.text .malformed)
  | (some _, node) :: members => do
    node.readWhole room
    readMembers room members

end

end ArchAudit.Json
