-- SUMMARY: Paths and references may be written with either slash.
import ArchAudit.Proofs.OrderIndependence

/-!
# Path separators

Paths of components and references to them are read with forward slashes, whichever kind
they are written with. Neither kind is blank, so it does not matter whether slashes are
replaced before or after blanks are trimmed. Records written with backslashes are therefore
accepted, arranged and joined like those written with forward slashes, and only the texts of
diagnostics tell the difference.
-/

namespace ArchAudit

/-! ## Text -/

namespace Text

/-- How a character of a path is read. -/
def forwardSlash (c : Char) : Char :=
  if c = '\\' then '/' else c

theorem toList_forwardSlashes (s : String) :
    (forwardSlashes s).toList = s.toList.map forwardSlash :=
  String.toList_ofList

theorem isBlank_forwardSlash (c : Char) : isBlank (forwardSlash c) = isBlank c := by
  by_cases hc : c = '\\'
  · subst hc
    decide
  · rw [forwardSlash, if_neg hc]

theorem forwardSlash_forwardSlash (c : Char) : forwardSlash (forwardSlash c) = forwardSlash c := by
  by_cases hc : c = '\\'
  · subst hc
    decide
  · have hsame : forwardSlash c = c := if_neg hc
    rw [hsame, hsame]

@[simp] theorem forwardSlashes_forwardSlashes (s : String) :
    forwardSlashes (forwardSlashes s) = forwardSlashes s := by
  apply String.toList_injective
  simp [toList_forwardSlashes, forwardSlash_forwardSlash]

@[simp] theorem isBlankText_forwardSlashes (s : String) :
    isBlankText (forwardSlashes s) = isBlankText s := by
  rw [isBlankText, toList_forwardSlashes, List.all_map]
  simp only [Function.comp_def, isBlank_forwardSlash]
  rfl

/-- Characters can be replaced before or after trimming if the class stays the same. -/
theorem trimBoth_map {p : Char → Bool} {f : Char → Char} (h : ∀ c, p (f c) = p c)
    (cs : List Char) : trimBoth p (cs.map f) = (trimBoth p cs).map f := by
  have hdrop (cs : List Char) : (cs.map f).dropWhile p = (cs.dropWhile p).map f := by
    rw [List.dropWhile_map]
    simp only [Function.comp_def, h]
  rw [trimBoth, hdrop, ← List.map_reverse, hdrop, ← List.map_reverse, trimBoth]

theorem trim_forwardSlashes (s : String) : trim (forwardSlashes s) = forwardSlashes (trim s) := by
  apply String.toList_injective
  rw [trim, toList_forwardSlashes, toList_forwardSlashes, trim, String.toList_ofList,
    String.toList_ofList, trimBoth_map isBlank_forwardSlash]

end Text

@[simp] theorem ReferenceText.normalize_forwardSlashes (reference : String) :
    normalize (Text.forwardSlashes reference) = normalize reference := by
  rw [normalize, Text.trim_forwardSlashes, Text.forwardSlashes_forwardSlashes, normalize]

/-! ## Records -/

/-- The reference with forward slashes. -/
def Reference.forwardSlashes (reference : Reference) : Reference :=
  { reference with target := Text.forwardSlashes reference.target }

/-- The record with forward slashes in its path and in what it refers to. -/
def ComponentRecord.forwardSlashes (r : ComponentRecord) : ComponentRecord :=
  { r with
    filePath := Text.forwardSlashes r.filePath
    references := r.references.map Reference.forwardSlashes }

theorem ComponentRecord.problem?_forwardSlashes (r : ComponentRecord) (index : Nat)
    (seen : List ComponentId) : r.forwardSlashes.problem? index seen = r.problem? index seen := by
  simp only [problem?, requiredFields, forwardSlashes, List.find?_cons,
    Text.isBlankText_forwardSlashes]
  cases Text.isBlankText r.componentId with
  | true => rfl
  | false =>
    cases Text.isBlankText r.displayName with
    | true => rfl
    | false => cases Text.isBlankText r.filePath <;> rfl

theorem firstProblem?_forwardSlashes (index : Nat) (seen : List ComponentId)
    (records : List ComponentRecord) :
    firstProblem? index seen (records.map .forwardSlashes) = firstProblem? index seen records := by
  induction records generalizing index seen with
  | nil => rfl
  | cons r records ih =>
    rw [List.map_cons, firstProblem?, ComponentRecord.problem?_forwardSlashes, ih, firstProblem?]
    rfl

theorem sortRecords_forwardSlashes (records : List ComponentRecord) :
    sortRecords (records.map .forwardSlashes) = (sortRecords records).map .forwardSlashes := by
  apply Eq.symm
  apply List.map_mergeSort
  intro a _ b _
  rfl

theorem Component.ofRecord_forwardSlashes {α : Type} [Scalar α] (r : ComponentRecord) :
    (ofRecord r.forwardSlashes : Component α) = ofRecord r := by
  simp [ofRecord, ComponentRecord.forwardSlashes]

/-! ## References -/

namespace Mention

/-- The reference with forward slashes, made by the same component. -/
def forwardSlashes (m : Mention) : Mention :=
  ⟨m.source, m.reference.forwardSlashes⟩

theorem mentions_forwardSlashes (records : List ComponentRecord) :
    mentions (records.map .forwardSlashes) = (mentions records).map forwardSlashes := by
  simp only [mentions, List.flatMap_map, List.map_flatMap, ComponentRecord.forwardSlashes,
    List.map_map]
  rfl

theorem resolve_forwardSlashes (addresses : List Address) (m : Mention) :
    m.forwardSlashes.resolve addresses = m.resolve addresses := by
  simp [resolve, Resolution.resolve, forwardSlashes, Reference.forwardSlashes]

theorem edge?_forwardSlashes (addresses : List Address) (m : Mention) :
    m.forwardSlashes.edge? addresses = m.edge? addresses := by
  rw [edge?, resolve_forwardSlashes]
  rfl

end Mention

/-- The diagnostics say the same of a reference, which the second has with forward
    slashes. -/
structure Diagnostic.SameButSlashes (d d' : Diagnostic) : Prop where
  kind : d'.kind = d.kind
  component : d'.component = d.component
  reference : d'.reference = Text.forwardSlashes d.reference
  message : ∃ statement, d.message = inQuotes d.reference ++ statement ∧
    d'.message = inQuotes d'.reference ++ statement

theorem Diagnostic.sameButSlashes_ofResolution (component : ComponentId) (reference : String)
    (resolution : Resolution) :
    List.Forall₂ SameButSlashes (ofResolution component reference resolution)
      (ofResolution component (Text.forwardSlashes reference) resolution) := by
  cases resolution with
  | resolved target strategy => exact .nil
  | ambiguous target strategy candidates =>
    refine .cons ⟨rfl, rfl, rfl, " matches " ++ toString candidates.length
      ++ " components; resolved to " ++ inQuotes target, ?_, ?_⟩ .nil
    · simp [ambiguous, String.append_assoc]
    · simp [ambiguous, String.append_assoc]
  | unresolved =>
    exact .cons ⟨rfl, rfl, rfl, " does not match any component", rfl, rfl⟩ .nil

theorem Mention.sameButSlashes_diagnostics (addresses : List Address) (ms : List Mention) :
    List.Forall₂ Diagnostic.SameButSlashes (ms.flatMap (·.diagnostics addresses))
      ((ms.map forwardSlashes).flatMap (·.diagnostics addresses)) := by
  induction ms with
  | nil => exact .nil
  | cons m ms ih =>
    rw [List.map_cons, List.flatMap_cons, List.flatMap_cons, diagnostics, diagnostics,
      resolve_forwardSlashes]
    exact List.rel_append (Diagnostic.sameButSlashes_ofResolution _ _ _) ih

/-! ## Reports -/

namespace GraphBuild

variable {α : Type} [Scalar α]

theorem bareGraph_forwardSlashes (records : List ComponentRecord) :
    (bareGraph (records.map .forwardSlashes) : Graph α) = bareGraph records := by
  have hcomponents : (records.map ComponentRecord.forwardSlashes).map Component.ofRecord =
      records.map (Component.ofRecord : _ → Component α) := by
    simp only [List.map_map, Function.comp_def, Component.ofRecord_forwardSlashes]
  rw [bareGraph, bareGraph, hcomponents, Mention.mentions_forwardSlashes, List.filterMap_map]
  simp only [Function.comp_def, Mention.edge?_forwardSlashes]

theorem graph_ofSorted_forwardSlashes (records : List ComponentRecord) :
    (ofSorted (records.map .forwardSlashes) : GraphBuild α).graph =
      (ofSorted records : GraphBuild α).graph := by
  rw [graph_ofSorted, graph_ofSorted, bareGraph_forwardSlashes]

theorem sameButSlashes_ofSorted (records : List ComponentRecord) :
    List.Forall₂ Diagnostic.SameButSlashes (ofSorted records : GraphBuild α).diagnostics
      (ofSorted (records.map .forwardSlashes) : GraphBuild α).diagnostics := by
  rw [diagnostics_ofSorted, diagnostics_ofSorted, graph_ofSorted_forwardSlashes,
    Mention.mentions_forwardSlashes]
  exact Mention.sameButSlashes_diagnostics _ _

end GraphBuild

namespace Pipeline

/-- Replacing all backslashes in paths and references by forward slashes leaves an error as
    it is, and a report but for the references that diagnostics quote. -/
theorem analyze_ignores_separators {α : Type} [Scalar α] {config : Config α}
    (hconfig : config.validate = .ok ()) :
    ∃ p, standard config = .ok p ∧ ∀ records : List ComponentRecord,
      (∃ e, p.analyze records = .error e ∧
        p.analyze (records.map .forwardSlashes) = .error e) ∨
      ∃ report report', p.analyze records = .ok report ∧
        p.analyze (records.map .forwardSlashes) = .ok report' ∧
        report' = { report with diagnostics := report'.diagnostics } ∧
        List.Forall₂ Diagnostic.SameButSlashes report.diagnostics report'.diagnostics := by
  obtain ⟨p, hp, hrun⟩ := standard_of_validate hconfig
  refine ⟨p, hp, ?_⟩
  intro records
  cases hproblem : firstProblem? 0 [] records with
  | some e =>
    have hproblem' := (firstProblem?_forwardSlashes 0 [] records).trans hproblem
    refine .inl ⟨.input (.record e), analyze_of_error ?_, analyze_of_error ?_⟩
    · rw [GraphBuild.ofRecords, hproblem]
    · rw [GraphBuild.ofRecords, hproblem']
  | none =>
    have hproblem' := (firstProblem?_forwardSlashes 0 [] records).trans hproblem
    have hbuild : GraphBuild.ofRecords records =
        .ok (GraphBuild.ofSorted (sortRecords records) : GraphBuild α) := by
      rw [GraphBuild.ofRecords, hproblem]
    have hbuild' : GraphBuild.ofRecords (records.map .forwardSlashes) =
        .ok (GraphBuild.ofSorted ((sortRecords records).map .forwardSlashes) : GraphBuild α) := by
      rw [GraphBuild.ofRecords, hproblem', sortRecords_forwardSlashes]
    exact .inr ⟨_, _, analyze_of_ok hrun hbuild, analyze_of_ok hrun hbuild',
      reportOf_of_graph_eq (GraphBuild.graph_ofSorted_forwardSlashes _),
      GraphBuild.sameButSlashes_ofSorted _⟩

/-- Two components with backslashes in their paths. The first refers to the second and to
    what is not there. -/
def backslashRecords : List ComponentRecord :=
  [⟨"cart", "Cart", "shop\\cart.rs", 3, .empty, .empty,
      [⟨".\\shop\\item.rs", .imports, []⟩, ⟨"lost\\found", .imports, []⟩], false, false⟩,
   ⟨"item", "Item", "shop\\item.rs", 3, .empty, .empty, [], false, false⟩]

/-- Both spellings join the components, and each diagnostic quotes its own. -/
theorem analyze_ignores_separators_backslashRecords :
    (Config.standard Float).validate = .ok () ∧
    ∃ p, standard (Config.standard Float) = .ok p ∧
      ∃ report report', p.analyze backslashRecords = .ok report ∧
        p.analyze (backslashRecords.map .forwardSlashes) = .ok report' ∧
        report.graph.hasEdge "cart" "item" = true ∧
        report.diagnostics.map (·.reference) = ["lost\\found"] ∧
        report'.diagnostics.map (·.reference) = ["lost/found"] ∧
        report' = { report with diagnostics := report'.diagnostics } := by
  obtain ⟨p, hp, hrun⟩ := standard_of_validate Config.validate_standard
  obtain ⟨p', hp', hrecords⟩ := analyze_ignores_separators Config.validate_standard
  obtain rfl : p = p' := Except.ok.inj (hp.symm.trans hp')
  refine ⟨Config.validate_standard, p, hp, ?_⟩
  have hbuild : GraphBuild.ofRecords backslashRecords =
      .ok (GraphBuild.ofSorted backslashRecords : GraphBuild Float) :=
    GraphBuild.ofRecords_of_ascending (by decide) (by decide)
  rcases hrecords backslashRecords with
    ⟨e, he, _⟩ | ⟨report, report', hreport, hreport', heq, hsame⟩
  · rw [analyze_of_ok hrun hbuild] at he
    cases he
  · have hstages := (stages_of_analyze hp hreport).build_of_ascending (by decide) (by decide)
    have hgraph : (GraphBuild.ofSorted backslashRecords).graph = report.graph :=
      congrArg GraphBuild.graph hstages
    have hnotices : (GraphBuild.ofSorted backslashRecords : GraphBuild Float).diagnostics =
        report.diagnostics :=
      congrArg GraphBuild.diagnostics hstages
    have hdiagnostics : report.diagnostics.map (·.reference) = ["lost\\found"] := by
      rw [← hnotices]
      decide +kernel
    have hread : report'.diagnostics.map (·.reference) =
        (report.diagnostics.map (·.reference)).map Text.forwardSlashes := by
      rw [List.map_map]
      exact map_eq_of_forall₂ (fun _ _ hd => hd.reference) hsame
    refine ⟨report, report', hreport, hreport', ?_, hdiagnostics, ?_, heq⟩
    · rw [← hgraph]
      decide +kernel
    · rw [hread, hdiagnostics]
      decide

end Pipeline

end ArchAudit
