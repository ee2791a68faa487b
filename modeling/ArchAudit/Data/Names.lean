-- SUMMARY: Enumerations with names, and sets of names and maps from names in ascending order.

/-!
# Names

The values of an enumeration have names. Names are ordered by code points. A `NameSet`
is a strictly ascending list and a `NameMap` a list of entries with strictly ascending
keys, so two of them are equal exactly if they hold the same.
-/

namespace ArchAudit

-- ---------------------------------------------------------------------------
-- Enumerations
-- ---------------------------------------------------------------------------

/-- A finite enumeration with a name for each value. -/
class Named (α : Type) where
  /-- All values, in their order. -/
  all : List α
  name : α → String

namespace Named

variable {α : Type} [Named α]

/-- The names with their values. -/
def table : List (String × α) :=
  (all : List α).map fun a => (name a, a)

end Named

-- ---------------------------------------------------------------------------
-- Sets
-- ---------------------------------------------------------------------------

/-- A set of names. -/
structure NameSet where
  toList : List String
  ascending : toList.Pairwise (· < ·)
deriving DecidableEq

/-- Puts a name into its place in an ascending list. -/
def insertName (a : String) : List String → List String
  | [] => [a]
  | b :: l => if a < b then a :: b :: l else if b < a then b :: insertName a l else b :: l

theorem mem_insertName {a x : String} {l : List String} (h : x ∈ insertName a l) :
    x = a ∨ x ∈ l := by
  fun_induction insertName a l with
  | case1 => simpa using h
  | case2 b l _ => simpa using h
  | case3 b l _ _ ih =>
    rcases List.mem_cons.1 h with rfl | h
    · simp
    · rcases ih h with h | h <;> simp [h]
  | case4 b l _ _ => exact .inr h

theorem pairwise_insertName {a : String} {l : List String} (h : l.Pairwise (· < ·)) :
    (insertName a l).Pairwise (· < ·) := by
  fun_induction insertName a l with
  | case1 => simp
  | case2 b l hab =>
    refine List.pairwise_cons.2 ⟨fun x hx => ?_, h⟩
    rcases List.mem_cons.1 hx with rfl | hx
    · exact hab
    · exact String.lt_trans hab ((List.pairwise_cons.1 h).1 x hx)
  | case3 b l _ hba ih =>
    obtain ⟨hb, hl⟩ := List.pairwise_cons.1 h
    refine List.pairwise_cons.2 ⟨fun x hx => ?_, ih hl⟩
    rcases mem_insertName hx with rfl | hx
    · exact hba
    · exact hb x hx
  | case4 b l _ _ => exact h

namespace NameSet

def empty : NameSet := ⟨[], .nil⟩

instance : EmptyCollection NameSet := ⟨empty⟩

instance : Inhabited NameSet := ⟨empty⟩

instance : Repr NameSet := ⟨fun s n => reprPrec s.toList n⟩

def insert (s : NameSet) (a : String) : NameSet :=
  ⟨insertName a s.toList, pairwise_insertName s.ascending⟩

/-- The set of the names in a list. -/
def ofList (l : List String) : NameSet :=
  l.foldl insert empty

def union (s t : NameSet) : NameSet :=
  t.toList.foldl insert s

def contains (s : NameSet) (a : String) : Bool :=
  s.toList.contains a

def size (s : NameSet) : Nat :=
  s.toList.length

def isEmpty (s : NameSet) : Bool :=
  s.toList.isEmpty

end NameSet

/-- The names of a list in ascending order, each once. -/
def ascendingNames (l : List String) : List String :=
  (NameSet.ofList l).toList

-- ---------------------------------------------------------------------------
-- Maps
-- ---------------------------------------------------------------------------

/-- A map from names. -/
structure NameMap (α : Type) where
  entries : List (String × α)
  ascending : entries.Pairwise (·.1 < ·.1)
deriving DecidableEq

/-- Puts an entry into its place, replacing one with the same key. -/
def insertEntry {α : Type} (e : String × α) : List (String × α) → List (String × α)
  | [] => [e]
  | f :: l => if e.1 < f.1 then e :: f :: l else if f.1 < e.1 then f :: insertEntry e l else e :: l

theorem mem_insertEntry {α : Type} {e x : String × α} {l : List (String × α)}
    (h : x ∈ insertEntry e l) : x = e ∨ x ∈ l := by
  fun_induction insertEntry e l with
  | case1 => simpa using h
  | case2 f l _ => simpa using h
  | case3 f l _ _ ih =>
    rcases List.mem_cons.1 h with rfl | h
    · simp
    · rcases ih h with h | h <;> simp [h]
  | case4 f l _ _ =>
    rcases List.mem_cons.1 h with rfl | h
    · simp
    · simp [h]

theorem pairwise_insertEntry {α : Type} {e : String × α} {l : List (String × α)}
    (h : l.Pairwise (·.1 < ·.1)) : (insertEntry e l).Pairwise (·.1 < ·.1) := by
  fun_induction insertEntry e l with
  | case1 => simp
  | case2 f l hef =>
    refine List.pairwise_cons.2 ⟨fun x hx => ?_, h⟩
    rcases List.mem_cons.1 hx with rfl | hx
    · exact hef
    · exact String.lt_trans hef ((List.pairwise_cons.1 h).1 x hx)
  | case3 f l _ hfe ih =>
    obtain ⟨hf, hl⟩ := List.pairwise_cons.1 h
    refine List.pairwise_cons.2 ⟨fun x hx => ?_, ih hl⟩
    rcases mem_insertEntry hx with rfl | hx
    · exact hfe
    · exact hf x hx
  | case4 f l hef hfe =>
    obtain ⟨hf, hl⟩ := List.pairwise_cons.1 h
    have heq : e.1 = f.1 := String.le_antisymm (String.not_lt.1 hfe) (String.not_lt.1 hef)
    exact List.pairwise_cons.2 ⟨fun x hx => heq ▸ hf x hx, hl⟩

namespace NameMap

variable {α : Type}

def empty : NameMap α := ⟨[], .nil⟩

instance : EmptyCollection (NameMap α) := ⟨empty⟩

instance : Inhabited (NameMap α) := ⟨empty⟩

instance [Repr α] : Repr (NameMap α) := ⟨fun m n => reprPrec m.entries n⟩

def insert (m : NameMap α) (key : String) (a : α) : NameMap α :=
  ⟨insertEntry (key, a) m.entries, pairwise_insertEntry m.ascending⟩

/-- The map of the entries of a list, a later one replacing an earlier. -/
def ofList (l : List (String × α)) : NameMap α :=
  l.foldl (fun m e => m.insert e.1 e.2) empty

def get? (m : NameMap α) (key : String) : Option α :=
  m.entries.lookup key

def contains (m : NameMap α) (key : String) : Bool :=
  m.entries.any (·.1 == key)

def keys (m : NameMap α) : List String :=
  m.entries.map (·.1)

def size (m : NameMap α) : Nat :=
  m.entries.length

end NameMap

end ArchAudit
