-- SUMMARY: Decoders read back what was written, combinator by combinator.
import ArchAudit.Proofs.JsonTree
import ArchAudit.Proofs.Names
import Mathlib.Data.List.Forall2

/-!
# Reading back

`Reads decode v a` says that the decoder makes `a` of the tree of `v`. Each
combinator has a lemma that gives it from the parts. For records, `Fields.Reads`
follows the fields in the order in which they are written: a further field reads its
own member and leaves those before it alone, since their names differ.
-/

namespace ArchAudit.Json

/-- The decoder reads the value as `a`. -/
def Reads {α : Type} (decode : Decoder α) (v : Value) (a : α) : Prop :=
  decode v.node = .ok a

-- ---------------------------------------------------------------------------
-- Scalars
-- ---------------------------------------------------------------------------

theorem reads_string (s : String) : Reads string (.string s) s := rfl

theorem reads_boolean (b : Bool) : Reads boolean (.bool b) b := rfl

theorem reads_word {n : Nat} (h : n ≤ greatestWord) : Reads word (.natural n) n := by
  simp [Reads, Value.node, word, Numeral.integer?, h]

/-- The text of the number is read as the number. -/
def ReadsBack (x : Float) : Prop :=
  decodeText float (String.ofList (floatText x)) = .ok x

theorem readsBack_iff {x : Float} : ReadsBack x ↔ Reads float (.float x) x := by
  rw [Reads, ← decodeText_pretty float (.float x)]
  exact Iff.rfl

instance (x : Float) : Decidable (ReadsBack x) :=
  decidable_of_iff (float (Value.float x).node = .ok x) readsBack_iff.symm

theorem reads_float {x : Float} (h : ReadsBack x) : Reads float (.float x) x :=
  readsBack_iff.1 h

-- ---------------------------------------------------------------------------
-- Collections
-- ---------------------------------------------------------------------------

section Collections

variable {α : Type} {decode : Decoder α} {f : α → Value}

/-- An array is read as a list if its items are read as the members, one by one. -/
theorem reads_array {l : List α} {vs : List Value}
    (h : List.Forall₂ (fun a v => Reads decode v a) l vs) : Reads (list decode) (.array vs) l := by
  have hitems : (itemNodes vs).mapM decode = .ok l := by
    induction h with
    | nil => rfl
    | cons ha _ ih =>
      rw [itemNodes, List.mapM_cons, ha, ih]
      rfl
  rw [Reads, Value.node, list, hitems]
  rfl

theorem reads_list {l : List α} (h : ∀ a ∈ l, Reads decode (f a) a) :
    Reads (list decode) (.array (l.map f)) l :=
  reads_array (List.forall₂_map_right_iff.2 (List.forall₂_same.2 h))

theorem reads_strings (l : List String) : Reads (list string) (.strings l) l :=
  reads_list fun s _ => reads_string s

theorem reads_nameSet (s : NameSet) : Reads nameSet (.ofNameSet s) s := by
  have hlist : list string (Value.ofNameSet s).node = .ok s.toList := reads_strings s.toList
  rw [Reads, nameSet, hlist]
  exact congrArg Except.ok s.ofList_toList

theorem insertMembers_entries (acc : NameMap α) {entries : List (String × α)}
    (h : ∀ e ∈ entries, Reads decode (f e.2) e.2)
    (hascending : (acc.entries ++ entries).Pairwise (·.1 < ·.1)) :
    insertMembers decode acc (memberNodes (entries.map fun e => (e.1, f e.2))) =
      .ok ⟨acc.entries ++ entries, hascending⟩ := by
  induction entries generalizing acc with
  | nil => simp [memberNodes, insertMembers]
  | cons e entries ih =>
    obtain ⟨he, hentries⟩ := List.forall_mem_cons.1 h
    have hlast : ∀ x ∈ acc.entries, x.1 < e.1 := fun x hx =>
      (List.pairwise_append.1 hascending).2.2 x hx e List.mem_cons_self
    have hinsert : (acc.insert e.1 e.2).entries = acc.entries ++ [e] :=
      insertEntry_eq_append hlast
    have hrest : ((acc.insert e.1 e.2).entries ++ entries).Pairwise (·.1 < ·.1) := by
      rwa [hinsert, List.append_assoc]
    rw [List.map_cons, memberNodes, insertMembers, he]
    refine (ih _ hentries hrest).trans ?_
    simp [hinsert]

theorem reads_nameMap {m : NameMap α} (h : ∀ e ∈ m.entries, Reads decode (f e.2) e.2) :
    Reads (nameMap decode) (.ofNameMap f m) m := by
  have hmembers := insertMembers_entries .empty h m.ascending
  rw [Reads, Value.ofNameMap, Value.node, nameMap, hmembers]
  rfl

end Collections

-- ---------------------------------------------------------------------------
-- Enumerations
-- ---------------------------------------------------------------------------

/-- An enumeration all of whose values are found by their names. -/
class LawfulNamed (α : Type) [Named α] : Prop where
  lookup_name : ∀ a : α, (Named.table : List (String × α)).lookup (Named.name a) = some a

section Enumerations

variable {α : Type} [Named α] [LawfulNamed α]

theorem variant_name (a : α) : variant Named.table (Named.name a) = .ok a := by
  rw [variant, LawfulNamed.lookup_name]

theorem reads_choice (a : α) : Reads (choice Named.table) (.ofNamed a) a :=
  variant_name a

theorem reads_choice? (a : α) : Reads (choice? Named.table) (.ofNamed a) (some a) := by
  have hchoice : choice Named.table (Value.ofNamed a).node = .ok a := reads_choice a
  change some <$> choice Named.table (Value.ofNamed a).node = _
  rw [hchoice]
  rfl

theorem reads_wholeChoice (payload : Decoder Unit) (a : α) :
    Reads (wholeChoice payload Named.table) (.ofNamed a) a :=
  variant_name a

end Enumerations

-- ---------------------------------------------------------------------------
-- Reading whole
-- ---------------------------------------------------------------------------

theorem readWhole_array {room : Nat} {vs : List Value}
    (h : ∀ v ∈ vs, v.node.readWhole room = .ok ()) :
    (Value.array vs).node.readWhole (room + 1) = .ok () := by
  have hitems : readItems room (itemNodes vs) = .ok () := by
    induction vs with
    | nil => rfl
    | cons v vs ih =>
      obtain ⟨hv, hvs⟩ := List.forall_mem_cons.1 h
      rw [itemNodes, readItems, hv]
      exact ih hvs
  rw [Value.node, Node.readWhole, hitems]
  rfl

theorem readWhole_object {room : Nat} {ms : List (String × Value)}
    (h : ∀ m ∈ ms, m.2.node.readWhole room = .ok ()) :
    (Value.object ms).node.readWhole (room + 1) = .ok () := by
  have hmembers : readMembers room (memberNodes ms) = .ok () := by
    induction ms with
    | nil => rfl
    | cons m ms ih =>
      obtain ⟨hm, hms⟩ := List.forall_mem_cons.1 h
      rw [memberNodes, readMembers, hm]
      exact ih hms
  rw [Value.node, Node.readWhole, hmembers]
  rfl

theorem readWhole_strings (room : Nat) (l : List String) :
    (Value.strings l).node.readWhole (room + 1) = .ok () := by
  refine readWhole_array ?_
  intro v hv
  obtain ⟨s, _, rfl⟩ := List.mem_map.1 hv
  rfl

-- ---------------------------------------------------------------------------
-- Records
-- ---------------------------------------------------------------------------

/-- The members are the one given, or none at all where that says as much. -/
def MayOmit (assumed : Prop) (member : String × Value) (members : List (String × Value)) : Prop :=
  members = [member] ∨ assumed ∧ members = []

theorem MayOmit.eq_of_mem {assumed : Prop} {member m : String × Value}
    {members : List (String × Value)} (h : MayOmit assumed member members) (hm : m ∈ members) :
    m = member := by
  rcases h with rfl | ⟨_, rfl⟩
  · exact List.mem_singleton.1 hm
  · cases hm

namespace Fields

variable {α β : Type} {f : Fields α}

/-- The names listed are those that the fields take. -/
def Lawful (f : Fields α) : Prop :=
  ∀ state key node, (f.read state key node).isSome = true ↔ key ∈ f.names

theorem lawful_one (name : String) (decode : Decoder α) (missing : Option α) :
    (one name decode missing).Lawful := by
  intro state key node
  simp only [one, List.mem_singleton]
  split
  · cases state <;> simp [*]
  · simp [*]

theorem Lawful.pair {g : Fields β} (hf : f.Lawful) (hg : g.Lawful) : (pair f g).Lawful := by
  intro state key node
  simp only [Fields.pair, List.mem_append, ← hf state.1 key node, ← hg state.2 key node]
  cases f.read state.1 key node <;> simp

theorem Lawful.map (h : α → β) (hf : f.Lawful) : (f.map h).Lawful := hf

/-- The fields read the members as `a`, knowing all of them. -/
structure Reads (f : Fields α) (members : List (String × Value)) (a : α) : Prop where
  lawful : f.Lawful
  known : ∀ m ∈ members, m.1 ∈ f.names
  reads : ∃ state, f.readMembers f.start (memberNodes members) = .ok state ∧
    ∀ report, f.finish report state = .ok a

theorem readMembers_cons {state : f.State} {key : String} {node : Node}
    {r : Except Fault f.State} (h : f.read state key node = some r)
    (ms : List (Option String × Node)) :
    f.readMembers state ((some key, node) :: ms) = r >>= (f.readMembers · ms) := by
  rw [readMembers, h]

theorem readMembers_skip {state : f.State} {key : String} {node : Node}
    (h : f.read state key node = none) (ms : List (Option String × Node)) :
    f.readMembers state ((some key, node) :: ms) =
      node.skip >>= fun _ => f.readMembers state ms := by
  rw [readMembers, h]

theorem readMembers_concat (hf : f.Lawful) {ms : List (String × Value)}
    (hknown : ∀ m ∈ ms, m.1 ∈ f.names) {state state' : f.State}
    (h : f.readMembers state (memberNodes ms) = .ok state') (m : String × Value) :
    f.readMembers state (memberNodes (ms ++ [m])) =
      f.readMembers state' (memberNodes [m]) := by
  induction ms generalizing state with
  | nil => cases h; rfl
  | cons first ms ih =>
    obtain ⟨key, v⟩ := first
    obtain ⟨hkey, hknown⟩ := List.forall_mem_cons.1 hknown
    obtain ⟨r, hr⟩ := Option.isSome_iff_exists.1 ((hf state key v.node).2 hkey)
    rw [List.cons_append, memberNodes, readMembers_cons hr]
    rw [memberNodes, readMembers_cons hr] at h
    cases r with
    | error e => cases h
    | ok next => exact ih hknown h

/-- Members that the first fields know do not concern the second. -/
theorem readMembers_pair {g : Fields β} (hf : f.Lawful) {ms : List (String × Value)}
    (hknown : ∀ m ∈ ms, m.1 ∈ f.names) {state state' : f.State}
    (h : f.readMembers state (memberNodes ms) = .ok state') (other : g.State) :
    (pair f g).readMembers (state, other) (memberNodes ms) = .ok (state', other) := by
  induction ms generalizing state with
  | nil => cases h; rfl
  | cons first ms ih =>
    obtain ⟨key, v⟩ := first
    obtain ⟨hkey, hknown⟩ := List.forall_mem_cons.1 hknown
    obtain ⟨r, hr⟩ := Option.isSome_iff_exists.1 ((hf state key v.node).2 hkey)
    have hpair : (pair f g).read (state, other) key v.node = some (r.map (·, other)) := by
      simp only [pair, hr]
    rw [memberNodes, readMembers_cons hpair]
    rw [memberNodes, readMembers_cons hr] at h
    cases r with
    | error e => cases h
    | ok next => exact ih hknown h

theorem readMembers_map (h : α → β) (state : f.State) (ms : List (Option String × Node)) :
    (f.map h).readMembers state ms = f.readMembers state ms := by
  induction ms generalizing state with
  | nil => rfl
  | cons m ms ih =>
    obtain ⟨_ | key, node⟩ := m
    · rfl
    · cases hr : f.read state key node with
      | some r =>
        have hmap : (f.map h).read state key node = some r := hr
        rw [readMembers_cons hr, readMembers_cons hmap]
        cases r with
        | error e => rfl
        | ok next => exact ih next
      | none =>
        have hmap : (f.map h).read state key node = none := hr
        rw [readMembers_skip hr, readMembers_skip hmap]
        cases node.skip with
        | error e => rfl
        | ok u => exact ih state

namespace Reads

variable {name : String} {decode : Decoder α} {missing : Option α} {v : Value} {a : α}
  {members : List (String × Value)}

theorem one (h : Json.Reads decode v a) :
    (Fields.one name decode missing).Reads [(name, v)] a where
  lawful := lawful_one name decode missing
  known m hm := by
    rw [List.mem_singleton.1 hm]
    exact List.mem_singleton_self name
  reads := by
    have hread : (Fields.one name decode missing).read none name v.node = some (.ok (some a)) := by
      have hdecode : decode v.node = .ok a := h
      simp only [Fields.one, if_true, hdecode]
      rfl
    exact ⟨some a, readMembers_cons hread [], fun _ => rfl⟩

theorem map (k : α → β) (h : f.Reads members a) : (k <$> f).Reads members (k a) where
  lawful := h.lawful.map k
  known := h.known
  reads := by
    obtain ⟨state, hread, hfinish⟩ := h.reads
    refine ⟨state, (readMembers_map k _ _).trans hread, fun report => ?_⟩
    change k <$> f.finish report state = _
    rw [hfinish]
    rfl

/-- The first field of a record. -/
theorem first (k : α → β) (h : Json.Reads decode v a) :
    (k <$> Fields.one name decode missing).Reads [(name, v)] (k a) :=
  (Reads.one h).map k

theorem finish_pair {g : Fields β} {b : β} {state : f.State × g.State} {report : String → Fault}
    (hf : f.finish report state.1 = .ok a) (hg : g.finish report state.2 = .ok b) :
    (pair f g).finish report state = .ok (a, b) := by
  simp only [pair, hf, hg]
  rfl

/-- A further field reads a member of its own. -/
theorem seq {g : Fields (α → β)} {k : α → β} (hg : g.Reads members k)
    (h : Json.Reads decode v a) (hname : name ∉ g.names) :
    (g <*> Fields.one name decode missing).Reads (members ++ [(name, v)]) (k a) := by
  let last := Fields.one name decode missing
  have hlawful : (pair g last).Lawful := hg.lawful.pair (lawful_one name decode missing)
  have hknown : ∀ m ∈ members, m.1 ∈ (pair g last).names := fun m hm =>
    List.mem_append_left _ (hg.known m hm)
  obtain ⟨state, hread, hfinish⟩ := hg.reads
  have hbefore : (pair g last).readMembers (pair g last).start (memberNodes members) =
      .ok (state, last.start) :=
    readMembers_pair hg.lawful hg.known hread last.start
  have hskip : g.read state name v.node = none := by
    rw [← Option.not_isSome_iff_eq_none, hg.lawful]
    exact hname
  have hlast : (pair g last).read (state, last.start) name v.node = some (.ok (state, some a)) := by
    have hdecode : decode v.node = .ok a := h
    simp only [pair, hskip, last, Fields.one, if_true, hdecode]
    rfl
  have hpair : (pair g last).Reads (members ++ [(name, v)]) (k, a) := by
    refine ⟨hlawful, fun m hm => ?_, (state, some a), ?_,
      fun report => finish_pair (hfinish report) rfl⟩
    · rcases List.mem_append.1 hm with hm | hm
      · exact hknown m hm
      · rw [List.mem_singleton.1 hm]
        exact List.mem_append_right _ (List.mem_singleton_self name)
    · exact (readMembers_concat hlawful hknown hbefore _).trans (readMembers_cons hlast [])
  exact hpair.map fun p => p.1 p.2

/-- A field that may be left out does without a member. -/
theorem seq_absent {g : Fields (α → β)} {k : α → β} (hg : g.Reads members k) :
    (g <*> Fields.one name decode (some a)).Reads members (k a) := by
  let last := Fields.one name decode (some a)
  obtain ⟨state, hread, hfinish⟩ := hg.reads
  have hpair : (pair g last).Reads members (k, a) :=
    ⟨hg.lawful.pair (lawful_one name decode _),
      fun m hm => List.mem_append_left _ (hg.known m hm),
      (state, last.start), readMembers_pair hg.lawful hg.known hread last.start,
      fun report => finish_pair (hfinish report) rfl⟩
  exact hpair.map fun p => p.1 p.2

/-- A field that may be left out reads a member of its own, or does without one where
    its value is the one assumed then. -/
theorem seq_mayOmit {g : Fields (α → β)} {k : α → β} (hg : g.Reads members k) {assumed : α}
    (h : Json.Reads decode v a) (hname : name ∉ g.names) {last : List (String × Value)}
    (hlast : MayOmit (a = assumed) (name, v) last) :
    (g <*> Fields.one name decode (some assumed)).Reads (members ++ last) (k a) := by
  rcases hlast with rfl | ⟨rfl, rfl⟩
  · exact hg.seq h hname
  · rw [List.append_nil]
    exact hg.seq_absent

/-- An optional member is written only if it is there. -/
theorem seq_option {g : Fields (Option α → β)} {k : Option α → β} (hg : g.Reads members k)
    {decode? : Decoder (Option α)} {write : α → Value}
    (h : ∀ a, Json.Reads decode? (write a) (some a)) (hname : name ∉ g.names) (o : Option α) :
    (g <*> Fields.one name decode? (some none)).Reads
      (members ++ (o.map fun a => (name, write a)).toList) (k o) := by
  cases o with
  | none =>
    rw [Option.map_none, Option.toList_none, List.append_nil]
    exact hg.seq_absent
  | some a => exact hg.seq (h a) hname

theorem ofMembers (h : f.Reads members a) : f.ofMembers (memberNodes members) .closed = .ok a := by
  obtain ⟨state, hread, hfinish⟩ := h.reads
  rw [Fields.ofMembers, hread]
  exact hfinish _

end Reads

/-- A member of another name is passed over. -/
theorem ofMembers_skip (hf : f.Lawful) {key : String} {node : Node} (hkey : key ∉ f.names)
    (hskip : node.skip = .ok ()) (ms : List (Option String × Node)) :
    f.ofMembers ((some key, node) :: ms) .closed = f.ofMembers ms .closed := by
  have hread : f.read f.start key node = none := by
    rw [← Option.not_isSome_iff_eq_none, hf]
    exact hkey
  rw [ofMembers, ofMembers, readMembers_skip hread, hskip]
  rfl

end Fields

theorem reads_record {α : Type} {f : Fields α} {members : List (String × Value)} {a : α}
    (name : String) (h : f.Reads members a) : Reads (record name f) (.object members) a :=
  h.ofMembers

end ArchAudit.Json
