-- SUMMARY: Dependency cycles as groups of mutually reachable components.
import ArchAudit.Graph.Basic
import Std.Data.HashMap.Lemmas
import Std.Data.HashSet.Lemmas

/-!
# Cycles

`reachable` follows edges from a component. Two components are in one group if
each is reachable from the other; a component on its own is a group if it depends
on itself.
-/

namespace ArchAudit

/-- The successors of each node. -/
abbrev SuccessorTable := Std.HashMap String (List String)

/-- The nodes of a table that have not been seen. -/
def SuccessorTable.unseen (table : SuccessorTable) (seen : Std.HashSet String) : List String :=
  table.keys.filter fun v => !seen.contains v

/-- Seeing one more node leaves fewer unseen. -/
theorem SuccessorTable.length_unseen_insert_lt {table : SuccessorTable}
    {seen : Std.HashSet String} {v : String} (hv : v ∈ table) (hseen : seen.contains v = false) :
    (table.unseen (seen.insert v)).length < (table.unseen seen).length := by
  have h : v ∈ table.unseen seen := by
    simp only [unseen, List.mem_filter, Std.HashMap.mem_keys]
    exact ⟨hv, by simp [hseen]⟩
  have hsub : table.unseen (seen.insert v) = (table.unseen seen).filter (v != ·) := by
    simp [unseen, List.filter_filter, Std.HashSet.contains_insert, bne]
  rw [hsub]
  refine Nat.lt_of_le_of_ne (List.length_filter_le _ _) fun heq => ?_
  have := (List.length_filter_eq_length_iff.1 heq) v h
  simp at this

/-- The nodes seen so far and all that can be reached from the ones to do. -/
def explore (table : SuccessorTable) (todo : List String) (seen : Std.HashSet String) :
    Std.HashSet String :=
  match todo with
  | [] => seen
  | v :: rest =>
    match _hseen : seen.contains v, _hv : table[v]? with
    | false, some next => explore table (next ++ rest) (seen.insert v)
    | _, _ => explore table rest seen
termination_by ((table.unseen seen).length, todo.length)
decreasing_by
  · refine Prod.Lex.left _ _ (SuccessorTable.length_unseen_insert_lt ?_ _hseen)
    exact Std.HashMap.mem_iff_isSome_getElem?.2 (by simp [_hv])
  · exact Prod.Lex.right _ (by simp)

/-- A strongly connected group of components; a single member depends on itself. -/
structure CycleGroup where
  members : List ComponentId
  /-- The number of references between members. -/
  internalWeight : Nat
deriving DecidableEq, Repr

def CycleGroup.isSelfLoop (c : CycleGroup) : Bool :=
  c.members.length == 1

namespace Graph

variable {α : Type}

/-- The targets of the edges that leave a component. -/
def successors (g : Graph α) (id : ComponentId) : List ComponentId :=
  (g.outgoing id).map (·.target)

def successorTable (g : Graph α) : SuccessorTable :=
  .ofList (g.ids.map fun id => (id, g.successors id))

/-- For each component, the component itself and all others to which a path leads
    from it. -/
def reachable (g : Graph α) : List (ComponentId × Std.HashSet ComponentId) :=
  let table := g.successorTable
  g.ids.map fun id => (id, explore table [id] ∅)

/-- The components that are reachable from a component and from which it is
    reachable, given what is reachable from each. -/
def mutuallyReachable (reach : List (ComponentId × Std.HashSet ComponentId))
    (id : ComponentId) : List ComponentId :=
  let forward := (reach.lookup id).getD ∅
  (reach.filter fun entry => forward.contains entry.1 && entry.2.contains id).map (·.1)

def internalWeight (g : Graph α) (members : List ComponentId) : Nat :=
  Edge.totalWeight
    (g.edges.filter fun e => members.contains e.source && members.contains e.target)

/-- The groups of mutually reachable components, each listed at its first member. -/
def cycles (g : Graph α) : List CycleGroup :=
  let reach := g.reachable
  g.ids.filterMap fun id =>
    let members := mutuallyReachable reach id
    if members.head? = some id ∧ (1 < members.length ∨ g.hasEdge id id = true) then
      some ⟨members, g.internalWeight members⟩
    else none

end Graph

end ArchAudit
