-- SUMMARY: Records are read back from every way of writing their references.
import ArchAudit.Component.Codec
import ArchAudit.Proofs.ReportRoundTrip

/-!
# Records in JSON

Records are written in one way and may be given in several: an import without symbols
is also its target alone, and an object may leave out a kind or symbols that go
without saying. `Spells` lists the ways. All of them, in any mix, are read as the same
records.
-/

namespace ArchAudit

open Json

-- ---------------------------------------------------------------------------
-- References
-- ---------------------------------------------------------------------------

namespace Reference

/-- The ways to give a reference: as text, if it is an import without symbols, or as
    an object that may leave out the kind of an import and an empty list of symbols. -/
inductive Spells (r : Reference) : Value → Prop
  | text (hkind : r.kind = .imports) (hsymbols : r.symbols = []) : Spells r (.string r.target)
  | object {kind symbols : List (String × Value)}
      (hkind : MayOmit (r.kind = .imports) ("kind", .ofNamed r.kind) kind)
      (hsymbols : MayOmit (r.symbols = []) ("symbols", .strings r.symbols) symbols) :
      Spells r (.object ([("target", .string r.target)] ++ kind ++ symbols))

variable {r : Reference}

theorem spells_toJson (r : Reference) : r.Spells r.toJson :=
  .object (.inl rfl) (.inl rfl)

theorem decode_of_ofWhole {node : Node} (hwhole : node.readWhole referenceRoom = .ok ())
    (h : ofWhole node = .ok r) : decode node = .ok r := by
  unfold decode
  rw [hwhole, h]
  rfl

theorem reads_of_spells {v : Value} (h : r.Spells v) : Reads decode v r := by
  cases h with
  | text hkind hsymbols =>
    obtain ⟨target, kind, symbols⟩ := r
    cases hkind
    cases hsymbols
    rfl
  | @object kind symbols hkind hsymbols =>
    have hfields : fields.Reads ([("target", .string r.target)] ++ kind ++ symbols) r :=
      Fields.Reads.first Reference.mk (reads_string r.target)
        |>.seq_mayOmit (reads_wholeChoice unit r.kind) (by decide) hkind
        |>.seq_mayOmit (reads_strings r.symbols) (by decide) hsymbols
    refine decode_of_ofWhole (readWhole_object ?_) hfields.ofMembers
    intro m hm
    simp only [List.mem_append, List.mem_singleton] at hm
    rcases hm with (rfl | hm) | hm
    · rfl
    · rw [hkind.eq_of_mem hm]
      rfl
    · rw [hsymbols.eq_of_mem hm]
      exact readWhole_strings 122 r.symbols

end Reference

-- ---------------------------------------------------------------------------
-- Records
-- ---------------------------------------------------------------------------

namespace ComponentRecord

/-- The ways to give a record: its sets as ascending lists, and each reference in any
    of the ways to give it. -/
def Spells (r : ComponentRecord) (v : Value) : Prop :=
  ∃ references, List.Forall₂ Reference.Spells r.references references ∧
    v = .object
      [("component_id", .string r.componentId),
       ("display_name", .string r.displayName),
       ("file_path", .string r.filePath),
       ("loc", .natural r.loc),
       ("exported_symbols", .strings r.exportedSymbols.toList),
       ("private_symbols", .strings r.privateSymbols.toList),
       ("raw_dependency_references", .array references),
       ("declares_abstraction", .bool r.declaresAbstraction),
       ("uses_dependency_injection", .bool r.usesDependencyInjection)]

theorem spells_toJson (r : ComponentRecord) : r.Spells r.toJson := by
  refine ⟨r.references.map Reference.toJson, ?_, rfl⟩
  exact List.forall₂_map_right_iff.2 (List.forall₂_same.2 fun s _ => s.spells_toJson)

theorem reads_of_spells {r : ComponentRecord} {v : Value} (hloc : r.loc ≤ greatestWord)
    (h : r.Spells v) : Reads decode v r := by
  obtain ⟨references, hreferences, rfl⟩ := h
  have hlist : Reads (list Reference.decode) (.array references) r.references :=
    reads_array (hreferences.imp fun _ _ => Reference.reads_of_spells)
  exact reads_record _ (Fields.Reads.first ComponentRecord.mk (reads_string _)
    |>.seq (reads_string _) (by decide)
    |>.seq (reads_string _) (by decide)
    |>.seq (reads_word hloc) (by decide)
    |>.seq (reads_nameSet _) (by decide)
    |>.seq (reads_nameSet _) (by decide)
    |>.seq hlist (by decide)
    |>.seq (reads_boolean _) (by decide)
    |>.seq (reads_boolean _) (by decide))

theorem reads_records {records : List ComponentRecord} {values : List Value}
    (hloc : ∀ r ∈ records, r.loc ≤ greatestWord) (h : List.Forall₂ Spells records values) :
    Reads (list decode) (.array values) records := by
  refine reads_array ?_
  induction h with
  | nil => exact .nil
  | cons hr _ ih =>
    obtain ⟨hfirst, hrest⟩ := List.forall_mem_cons.1 hloc
    exact .cons (reads_of_spells hfirst hr) (ih hrest)

/-- Records whose line counts fit a machine word are read back from their own text,
    and from the text, compact or indented, of any mix of ways to give them. -/
theorem parse_any_spelling {records : List ComponentRecord}
    (hloc : ∀ r ∈ records, r.loc ≤ greatestWord) :
    parse (render records) = .ok records ∧
    ∀ values, List.Forall₂ Spells records values →
      parse (Value.array values).compact = .ok records ∧
      parse (Value.array values).pretty = .ok records := by
  have hspelled : ∀ values, List.Forall₂ Spells records values →
      parse (Value.array values).compact = .ok records ∧
      parse (Value.array values).pretty = .ok records := by
    intro values h
    unfold parse
    rw [decodeText_compact, decodeText_pretty]
    exact ⟨reads_records hloc h, reads_records hloc h⟩
  refine ⟨(hspelled (records.map toJson) ?_).1, hspelled⟩
  exact List.forall₂_map_right_iff.2 (List.forall₂_same.2 fun r _ => r.spells_toJson)

/-- A record with every way to give a reference, with repeated and unsorted symbols in
    one of them, and with characters that need escaping. -/
def mixedRecord : ComponentRecord where
  componentId := "a\""
  displayName := "A\n"
  filePath := "src\\a"
  loc := greatestWord
  exportedSymbols := .ofList ["y", "x"]
  privateSymbols := .empty
  references :=
    [⟨"b", .imports, []⟩, ⟨"b", .imports, []⟩, ⟨"b", .imports, []⟩, ⟨"c", .calls, []⟩,
     ⟨"d", .imports, ["s", "r", "s"]⟩]
  declaresAbstraction := true
  usesDependencyInjection := false

/-- The references of the record: as text, with its target only, in full, without
    symbols, and without a kind. -/
def mixedReferences : List Value :=
  [.string "b",
   .object [("target", .string "b")],
   .object [("target", .string "b"), ("kind", .string "import"), ("symbols", .array [])],
   .object [("target", .string "c"), ("kind", .string "call")],
   .object [("target", .string "d"), ("symbols", .strings ["s", "r", "s"])]]

def mixedValue : Value :=
  .object
    [("component_id", .string "a\""), ("display_name", .string "A\n"),
     ("file_path", .string "src\\a"), ("loc", .natural greatestWord),
     ("exported_symbols", .strings ["x", "y"]), ("private_symbols", .strings []),
     ("raw_dependency_references", .array mixedReferences),
     ("declares_abstraction", .bool true), ("uses_dependency_injection", .bool false)]

theorem parse_any_spelling_mixedRecord :
    parse (render [mixedRecord]) = .ok [mixedRecord] ∧
      parse (Value.array [mixedValue]).compact = .ok [mixedRecord] ∧
      parse (Value.array [mixedValue]).pretty = .ok [mixedRecord] := by
  have hloc : ∀ r ∈ [mixedRecord], r.loc ≤ greatestWord := by decide
  have hreferences : List.Forall₂ Reference.Spells mixedRecord.references mixedReferences := by
    refine .cons (.text rfl rfl) (.cons ?_ (.cons ?_ (.cons ?_ (.cons ?_ .nil))))
    · exact .object (.inr ⟨rfl, rfl⟩) (.inr ⟨rfl, rfl⟩)
    · exact .object (.inl rfl) (.inl rfl)
    · exact .object (.inl rfl) (.inr ⟨rfl, rfl⟩)
    · exact .object (.inr ⟨rfl, rfl⟩) (.inl rfl)
  have hvalue : List.Forall₂ Spells [mixedRecord] [mixedValue] :=
    .cons ⟨mixedReferences, hreferences, rfl⟩ .nil
  obtain ⟨hrender, hspelled⟩ := parse_any_spelling hloc
  exact ⟨hrender, hspelled _ hvalue⟩

end ComponentRecord

end ArchAudit
