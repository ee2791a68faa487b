-- SUMMARY: A report that is written and read again is the same report.
import ArchAudit.Analysis.Codec
import ArchAudit.Proofs.JsonDecode

/-!
# Reports in JSON

Every part of a report is read back from what is written for it. Two things are asked
of the numbers in it: that natural numbers fit a machine word, and that the text of a
binary64 number is read as that number.
-/

namespace ArchAudit

open Json

-- ---------------------------------------------------------------------------
-- Enumerations
-- ---------------------------------------------------------------------------

instance : LawfulNamed EdgeKind := ⟨by intro a; cases a <;> rfl⟩

instance : LawfulNamed DiagnosticKind := ⟨by intro a; cases a <;> rfl⟩

instance : LawfulNamed Role := ⟨by intro a; cases a <;> rfl⟩

instance : LawfulNamed StyleKind := ⟨by intro a; cases a <;> rfl⟩

instance : LawfulNamed Classification.Form := ⟨by intro a; cases a <;> rfl⟩

instance : LawfulNamed ViolationKind := ⟨by intro a; cases a <;> rfl⟩

instance : LawfulNamed SeverityBand := ⟨by intro a; cases a <;> rfl⟩

instance : LawfulNamed IntentKind := ⟨by intro a; cases a <;> rfl⟩

instance : LawfulNamed EvidenceSignal := ⟨by intro a; cases a <;> rfl⟩

instance : LawfulNamed RefactoringCategory := ⟨by intro a; cases a <;> rfl⟩

instance : LawfulNamed Priority := ⟨by intro a; cases a <;> rfl⟩

-- ---------------------------------------------------------------------------
-- Graphs
-- ---------------------------------------------------------------------------

namespace Metrics

def floats (m : Metrics Float) : List Float :=
  [m.degreeCentrality, m.betweennessCentrality, m.instability]

def words (m : Metrics Float) : List Nat :=
  [m.afferent, m.efferent]

theorem reads_toJson {m : Metrics Float} (hfloats : ∀ x ∈ m.floats, ReadsBack x)
    (hwords : ∀ n ∈ m.words, n ≤ greatestWord) : Reads decode m.toJson m := by
  simp only [floats, words, List.forall_mem_cons] at hfloats hwords
  obtain ⟨hdegree, hbetweenness, hinstability, _⟩ := hfloats
  obtain ⟨hafferent, hefferent, _⟩ := hwords
  exact reads_record _ (Fields.Reads.first Metrics.mk (reads_word hafferent)
    |>.seq (reads_word hefferent) (by decide)
    |>.seq (reads_float hdegree) (by decide)
    |>.seq (reads_float hbetweenness) (by decide)
    |>.seq (reads_float hinstability) (by decide))

end Metrics

namespace Component

def floats (c : Component Float) : List Float :=
  c.metrics.floats

def words (c : Component Float) : List Nat :=
  c.loc :: c.metrics.words

theorem reads_toJson {c : Component Float} (hfloats : ∀ x ∈ c.floats, ReadsBack x)
    (hwords : ∀ n ∈ c.words, n ≤ greatestWord) : Reads decode c.toJson c := by
  obtain ⟨hloc, hwords⟩ := List.forall_mem_cons.1 hwords
  exact reads_record _ (Fields.Reads.first Component.mk (reads_string _)
    |>.seq (reads_string _) (by decide)
    |>.seq (reads_string _) (by decide)
    |>.seq (reads_word hloc) (by decide)
    |>.seq (reads_nameSet _) (by decide)
    |>.seq (reads_nameSet _) (by decide)
    |>.seq (reads_boolean _) (by decide)
    |>.seq (reads_boolean _) (by decide)
    |>.seq (Metrics.reads_toJson hfloats hwords) (by decide))

end Component

theorem Edge.reads_toJson {e : Edge} (hweight : e.weight ≤ greatestWord) :
    Reads Edge.decode e.toJson e :=
  reads_record _ (Fields.Reads.first Edge.mk (reads_string _)
    |>.seq (reads_string _) (by decide)
    |>.seq (reads_choice _) (by decide)
    |>.seq (reads_word hweight) (by decide)
    |>.seq (reads_nameSet _) (by decide))

namespace Graph

def floats (g : Graph Float) : List Float :=
  g.components.flatMap Component.floats

def words (g : Graph Float) : List Nat :=
  g.components.flatMap Component.words ++ g.edges.map (·.weight)

theorem reads_toJson {g : Graph Float} (hfloats : ∀ x ∈ g.floats, ReadsBack x)
    (hwords : ∀ n ∈ g.words, n ≤ greatestWord) : Reads decode g.toJson g := by
  obtain ⟨hcomponents, hedges⟩ := List.forall_mem_append.1 hwords
  have hcomponent : ∀ c ∈ g.components, Reads Component.decode c.toJson c := fun c hc =>
    Component.reads_toJson (fun x hx => hfloats x (List.mem_flatMap.2 ⟨c, hc, hx⟩))
      fun n hn => hcomponents n (List.mem_flatMap.2 ⟨c, hc, hn⟩)
  have hedge : ∀ e ∈ g.edges, Reads Edge.decode e.toJson e := fun e he =>
    Edge.reads_toJson (hedges _ (List.mem_map.2 ⟨e, he, rfl⟩))
  exact reads_record _ (Fields.Reads.first Graph.mk (reads_list hcomponent)
    |>.seq (reads_list hedge) (by decide))

end Graph

theorem Diagnostic.reads_toJson (d : Diagnostic) : Reads Diagnostic.decode d.toJson d :=
  reads_record _ (Fields.Reads.first Diagnostic.mk (reads_choice _)
    |>.seq (reads_string _) (by decide)
    |>.seq (reads_string _) (by decide)
    |>.seq (reads_string _) (by decide))

-- ---------------------------------------------------------------------------
-- Intents
-- ---------------------------------------------------------------------------

theorem Evidence.reads_toJson (e : Evidence) : Reads Evidence.decode e.toJson e :=
  reads_record _ (Fields.Reads.first Evidence.mk (reads_strings _)
    |>.seq (reads_string _) (by decide)
    |>.seq (reads_choice _) (by decide))

namespace IntentResult

def floats (r : IntentResult Float) : List Float :=
  r.score :: r.metrics.entries.map (·.2)

theorem reads_toJson {r : IntentResult Float} (hfloats : ∀ x ∈ r.floats, ReadsBack x) :
    Reads decode r.toJson r := by
  obtain ⟨hscore, hmetrics⟩ := List.forall_mem_cons.1 hfloats
  have hmetric : ∀ e ∈ r.metrics.entries, Reads float (.float e.2) e.2 := fun e he =>
    reads_float (hmetrics _ (List.mem_map.2 ⟨e, he, rfl⟩))
  exact reads_record _ (Fields.Reads.first IntentResult.mk (reads_choice _)
    |>.seq (reads_float hscore) (by decide)
    |>.seq (reads_list fun e _ => e.reads_toJson) (by decide)
    |>.seq (reads_boolean _) (by decide)
    |>.seq (reads_nameMap hmetric) (by decide))

end IntentResult

-- ---------------------------------------------------------------------------
-- Violations and styles
-- ---------------------------------------------------------------------------

theorem Violation.reads_toJson {v : Violation Float} (hseverity : ReadsBack v.severity) :
    Reads Violation.decode v.toJson v :=
  reads_record _ (Fields.Reads.first Violation.mk (reads_string _)
    |>.seq (reads_choice _) (by decide)
    |>.seq (reads_float hseverity) (by decide)
    |>.seq (reads_choice _) (by decide)
    |>.seq (reads_strings _) (by decide)
    |>.seq (reads_string _) (by decide)
    |>.seq_option reads_choice? (by decide) v.style)

namespace StyleMetrics

def floats (m : StyleMetrics Float) : List Float :=
  [m.roleCoverage, m.complianceRatio]

def words (m : StyleMetrics Float) : List Nat :=
  [m.classifiedComponents, m.inScopeEdges, m.compliantEdges, m.violatingEdges]

theorem reads_toJson {m : StyleMetrics Float} (hfloats : ∀ x ∈ m.floats, ReadsBack x)
    (hwords : ∀ n ∈ m.words, n ≤ greatestWord) : Reads decode m.toJson m := by
  simp only [floats, words, List.forall_mem_cons] at hfloats hwords
  obtain ⟨hcoverage, hcompliance, _⟩ := hfloats
  obtain ⟨hclassified, hinScope, hcompliant, hviolating, _⟩ := hwords
  exact reads_record _ (Fields.Reads.first StyleMetrics.mk (reads_float hcoverage)
    |>.seq (reads_float hcompliance) (by decide)
    |>.seq (reads_word hclassified) (by decide)
    |>.seq (reads_word hinScope) (by decide)
    |>.seq (reads_word hcompliant) (by decide)
    |>.seq (reads_word hviolating) (by decide))

end StyleMetrics

namespace StyleResult

def floats (r : StyleResult Float) : List Float :=
  r.confidence :: r.violations.map (·.severity) ++ r.metrics.floats

def words (r : StyleResult Float) : List Nat :=
  r.metrics.words

theorem reads_toJson {r : StyleResult Float} (hfloats : ∀ x ∈ r.floats, ReadsBack x)
    (hwords : ∀ n ∈ r.words, n ≤ greatestWord) : Reads decode r.toJson r := by
  simp only [floats, List.forall_mem_append, List.forall_mem_cons, List.forall_mem_map] at hfloats
  obtain ⟨⟨hconfidence, hseverities⟩, hmetrics⟩ := hfloats
  have hviolation : ∀ v ∈ r.violations, Reads Violation.decode v.toJson v := fun v hv =>
    Violation.reads_toJson (hseverities v hv)
  exact reads_record _ (Fields.Reads.first StyleResult.mk (reads_choice _)
    |>.seq (reads_float hconfidence) (by decide)
    |>.seq (reads_nameMap fun e _ => reads_choice e.2) (by decide)
    |>.seq (reads_list hviolation) (by decide)
    |>.seq (StyleMetrics.reads_toJson hmetrics hwords) (by decide)
    |>.seq (reads_boolean _) (by decide))

end StyleResult

namespace Classification

/-- The form is found among the members, and the other member is read whole. -/
theorem decode_tagged (form : Form) {key : String} {v : Value} (hkey : key ≠ "kind")
    (hwhole : v.node.readWhole memberRoom = .ok ()) :
    decode (Value.object [("kind", .ofNamed form), (key, v)]).node =
      ofMembers form (memberNodes [("kind", .ofNamed form), (key, v)]) := by
  have hform : decodeForm (Value.ofNamed form).node = .ok form := variant_name form
  have hfind : findForm none (memberNodes [("kind", .ofNamed form), (key, v)]) =
      .ok (some form) := by
    simp only [memberNodes, findForm, if_true, hform, if_neg hkey, hwhole, bind, Except.bind]
  rw [Value.node, decode, hfind]
  rfl

theorem readWhole_styles (styles : List StyleKind) :
    (Value.array (styles.map Value.ofNamed)).node.readWhole memberRoom = .ok () := by
  refine readWhole_array ?_
  intro v hv
  obtain ⟨style, _, rfl⟩ := List.mem_map.1 hv
  rfl

theorem reads_toJson (c : Classification) : Reads decode c.toJson c := by
  cases c with
  | single style =>
    have hfields : singleFields.Reads [("style", .ofNamed style)] (.single style) :=
      .first Classification.single (reads_wholeChoice emptyUnit style)
    refine (decode_tagged .single (by decide) rfl).trans ?_
    exact (Fields.ofMembers_skip hfields.lawful (by decide) rfl _).trans hfields.ofMembers
  | hybrid styles =>
    have hfields : hybridFields.Reads [("styles", .array (styles.map Value.ofNamed))]
        (.hybrid styles) :=
      .first Classification.hybrid (reads_list fun style _ => reads_wholeChoice emptyUnit style)
    refine (decode_tagged .hybrid (by decide) (readWhole_styles styles)).trans ?_
    exact (Fields.ofMembers_skip hfields.lawful (by decide) rfl _).trans hfields.ofMembers
  | undetermined => rfl

end Classification

-- ---------------------------------------------------------------------------
-- Reports
-- ---------------------------------------------------------------------------

theorem Recommendation.reads_toJson (r : Recommendation) :
    Reads Recommendation.decode r.toJson r :=
  reads_record _ (Fields.Reads.first Recommendation.mk (reads_string _)
    |>.seq (reads_strings _) (by decide)
    |>.seq (reads_choice _) (by decide)
    |>.seq (reads_choice _) (by decide)
    |>.seq (reads_strings _) (by decide))

namespace Report

/-- All binary64 numbers of a report. -/
def floats (r : Report Float) : List Float :=
  r.graph.floats ++ r.intents.flatMap IntentResult.floats ++ r.styles.flatMap StyleResult.floats
    ++ r.violations.map (·.severity) ++ [r.overallHealthScore]

/-- All natural numbers of a report. -/
def words (r : Report Float) : List Nat :=
  r.graph.words ++ r.styles.flatMap StyleResult.words

theorem reads_toJson {r : Report Float} (hfloats : ∀ x ∈ r.floats, ReadsBack x)
    (hwords : ∀ n ∈ r.words, n ≤ greatestWord) : Reads decode r.toJson r := by
  simp only [floats, words, List.forall_mem_append, List.forall_mem_singleton,
    List.forall_mem_map] at hfloats hwords
  obtain ⟨⟨⟨⟨hgraph, hintents⟩, hstyles⟩, hseverities⟩, hhealth⟩ := hfloats
  obtain ⟨hgraphWords, hstyleWords⟩ := hwords
  have hintent : ∀ i ∈ r.intents, Reads IntentResult.decode i.toJson i := fun i hi =>
    IntentResult.reads_toJson fun x hx => hintents x (List.mem_flatMap.2 ⟨i, hi, hx⟩)
  have hstyle : ∀ s ∈ r.styles, Reads StyleResult.decode s.toJson s := fun s hs =>
    StyleResult.reads_toJson (fun x hx => hstyles x (List.mem_flatMap.2 ⟨s, hs, hx⟩))
      fun n hn => hstyleWords n (List.mem_flatMap.2 ⟨s, hs, hn⟩)
  have hviolation : ∀ v ∈ r.violations, Reads Violation.decode v.toJson v := fun v hv =>
    Violation.reads_toJson (hseverities v hv)
  exact reads_record _ (Fields.Reads.first Report.mk (Graph.reads_toJson hgraph hgraphWords)
    |>.seq (reads_list hintent) (by decide)
    |>.seq (reads_list hstyle) (by decide)
    |>.seq (reads_list hviolation) (by decide)
    |>.seq (reads_list fun r _ => r.reads_toJson) (by decide)
    |>.seq (reads_float hhealth) (by decide)
    |>.seq (Classification.reads_toJson _) (by decide)
    |>.seq (reads_list fun d _ => d.reads_toJson) (by decide))

/-- A report of finite numbers that is written and read again is the same report, if
    the text of each of its numbers is read as that number. -/
theorem parse_render {r : Report Float} (hfinite : ∀ x ∈ r.floats, x.isFinite = true)
    (hwords : ∀ n ∈ r.words, n ≤ greatestWord)
    (hreads : ∀ x ∈ r.floats, x.isFinite = true → ReadsBack x) : parse r.render = .ok r := by
  rw [parse, render, decodeText_pretty]
  exact reads_toJson (fun x hx => hreads x hx (hfinite x hx)) hwords

/-- A report with an escaped, a quoted and a wide character, the greatest natural
    number, and violations with and without a style. -/
def sampleReport : Report Float where
  graph :=
    { components := [⟨"a\x01", "\"A\"", "src\\a\n", greatestWord, .ofList ["x", "y"], .empty, true,
        false, ⟨1, 1, 0.5, 0.1, 0.5⟩⟩]
      edges := [⟨"a\x01", "a\x01", .inherits, 3, .ofList ["𝒳"]⟩] }
  intents := [⟨.informationHiding, 1e-7, [⟨["a\x01"], "", .weakens⟩], false, .ofList [("r", 1e22)]⟩]
  styles := [⟨.clean, -0.0, .ofList [("a\x01", .useCase)], [], ⟨1.0, 0.3, 1, 0, 0, 0⟩, true⟩]
  violations :=
    [.make "v-1" .layerViolation 0.7 ["a\x01"] "" (some .clean),
     .make "v-2" .cycle 0.25 [] "" none]
  recommendations := []
  overallHealthScore := 0.1
  classification := .hybrid [.clean, .layered]
  diagnostics := [.dangling "a\x01" "b"]

theorem parse_render_sampleReport :
    (∀ x ∈ sampleReport.floats, x.isFinite = true ∧ ReadsBack x) ∧
      parse sampleReport.render = .ok sampleReport := by
  have hfloats : ∀ x ∈ sampleReport.floats, x.isFinite = true ∧ ReadsBack x := by decide +kernel
  have hwords : ∀ n ∈ sampleReport.words, n ≤ greatestWord := by decide +kernel
  exact ⟨hfloats, parse_render (fun x hx => (hfloats x hx).1) hwords
    fun x hx _ => (hfloats x hx).2⟩

end Report

end ArchAudit
