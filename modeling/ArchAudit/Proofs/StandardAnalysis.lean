-- SUMMARY: The built-in detectors, and what a report of theirs holds stage by stage.
import ArchAudit.Analysis.Pipeline
import ArchAudit.Proofs.Records
import ArchAudit.Proofs.StyleResults

/-!
# Standard analyses

A validated configuration has the built-in detectors, and none of them calls the
analysis off, so accepted records always get a report. `Report.Stages` says what each
stage put into it. Whatever holds of such a report holds of the analysis, which is
`standard_ensures`.
-/

namespace ArchAudit

-- ---------------------------------------------------------------------------
-- Detectors
-- ---------------------------------------------------------------------------

/-- A detector that comes after all others replaces none and goes to the end. -/
theorem mergeSort_replace_last {δ κ : Type} [DecidableEq κ] {kind : δ → κ} {rank : κ → Nat}
    {l : List δ} {d : δ} (h : (l ++ [d]).Pairwise fun a b => rank (kind a) < rank (kind b)) :
    (l.filter (kind · ≠ kind d) ++ [d]).mergeSort (fun a b => rank (kind a) ≤ rank (kind b)) =
      l ++ [d] := by
  have hkept : l.filter (kind · ≠ kind d) = l := by
    rw [List.filter_eq_self]
    intro a ha
    have hlt := (List.pairwise_append.1 h).2.2 a ha d (List.mem_singleton_self d)
    refine decide_eq_true ?_
    intro heq
    rw [heq] at hlt
    exact Nat.lt_irrefl _ hlt
  rw [hkept]
  exact List.mergeSort_of_pairwise (h.imp fun hlt => decide_eq_true (Nat.le_of_lt hlt))

namespace Registry

variable {α : Type} {r : Registry α}

theorem withIntent_of_last {d : IntentDetector α}
    (h : (r.intents ++ [d]).Pairwise fun a b => a.kind.rank < b.kind.rank) :
    r.withIntent d = { r with intents := r.intents ++ [d] } := by
  rw [withIntent, mergeSort_replace_last h]

theorem withIntents_of_ascending {l : List (IntentDetector α)}
    (h : (r.intents ++ l).Pairwise fun a b => a.kind.rank < b.kind.rank) :
    l.foldl withIntent r = { r with intents := r.intents ++ l } := by
  induction l generalizing r with
  | nil => rw [List.append_nil]; rfl
  | cons d l ih =>
    rw [List.append_cons] at h
    rw [List.foldl_cons, withIntent_of_last (List.pairwise_append.1 h).1, ih h]
    simp only [List.append_assoc, List.singleton_append]

theorem withStyle_of_last {d : StyleDetector α}
    (h : (r.styles ++ [d]).Pairwise fun a b => a.style.rank < b.style.rank) :
    r.withStyle d = { r with styles := r.styles ++ [d] } := by
  rw [withStyle, mergeSort_replace_last h]

theorem withStyles_of_ascending {l : List (StyleDetector α)}
    (h : (r.styles ++ l).Pairwise fun a b => a.style.rank < b.style.rank) :
    l.foldl withStyle r = { r with styles := r.styles ++ l } := by
  induction l generalizing r with
  | nil => rw [List.append_nil]; rfl
  | cons d l ih =>
    rw [List.append_cons] at h
    rw [List.foldl_cons, withStyle_of_last (List.pairwise_append.1 h).1, ih h]
    simp only [List.append_assoc, List.singleton_append]

/-- No detector calls the analysis off. -/
structure Uninterrupted (r : Registry α) : Prop where
  intents : ∀ d ∈ r.intents, d.cancels = false
  styles : ∀ d ∈ r.styles, d.cancels = false

variable [Scalar α]

/-- The three intents and five styles, in the order of their kinds. -/
def ofClassifier (config : Config α) (k : LayerClassifier) : Registry α where
  intents :=
    [.separation k config.intents.separationWeights, .encapsulation config.intents.hidingWeights,
     .inversion k config.intents.inversionWeights]
  styles := StyleTable.builtin.map (StyleDetector.ofTable config.styles)

theorem builtin_eq {config : Config α} {k : LayerClassifier} (h : config.classifier = .ok k) :
    builtin config = .ok (ofClassifier config k) := by
  have hintents : (ofClassifier config k).intents.Pairwise fun a b => a.kind.rank < b.kind.rank := by
    have hkinds : ((ofClassifier config k).intents.map (·.kind)).Pairwise (·.rank < ·.rank) := by
      change (Named.all : List IntentKind).Pairwise (·.rank < ·.rank)
      decide
    rwa [List.pairwise_map] at hkinds
  have hstyles : (ofClassifier config k).styles.Pairwise fun a b => a.style.rank < b.style.rank := by
    have htables : StyleTable.builtin.Pairwise fun s t => s.style.rank < t.style.rank := by decide
    exact List.pairwise_map.2 htables
  unfold builtin
  rw [h]
  change Except.ok ((ofClassifier config k).styles.foldl withStyle
    ((ofClassifier config k).intents.foldl withIntent empty)) = _
  rw [withIntents_of_ascending hintents, withStyles_of_ascending hstyles]
  rfl

theorem uninterrupted_ofClassifier (config : Config α) (k : LayerClassifier) :
    (ofClassifier config k).Uninterrupted := by
  refine ⟨?_, ?_⟩
  · intro d hd
    simp only [ofClassifier, List.mem_cons, List.not_mem_nil, or_false] at hd
    rcases hd with rfl | rfl | rfl <;> rfl
  · intro d hd
    obtain ⟨t, _, rfl⟩ := List.mem_map.1 hd
    rfl

end Registry

-- ---------------------------------------------------------------------------
-- Configurations
-- ---------------------------------------------------------------------------

/-- A sequence of checks that succeeds has succeeded in both its parts. -/
theorem exists_of_bind_eq_ok {ε β γ : Type} {x : Except ε β} {f : β → Except ε γ} {c : γ}
    (h : x >>= f = .ok c) : ∃ b, x = .ok b ∧ f b = .ok c := by
  cases x with
  | error e => cases h
  | ok b => exact ⟨b, rfl, h⟩

theorem ok_of_forM {ε β : Type} {f : β → Except ε Unit} {l : List β} (h : l.forM f = .ok ()) :
    ∀ b ∈ l, f b = .ok () := by
  induction l with
  | nil => simp
  | cons b l ih =>
    obtain ⟨_, hb, hl⟩ := exists_of_bind_eq_ok h
    rw [List.forall_mem_cons]
    exact ⟨hb, ih hl⟩

/-- The standard configuration passes its own checks. -/
theorem Config.validate_standard : (Config.standard Float).validate = .ok () := by
  decide +kernel

namespace Config

variable {α : Type} [Scalar α] {config : Config α}

/-- What a validated configuration has passed. -/
structure Checked (c : Config α) : Prop where
  confidenceThreshold :
    checkUnit "styles.confidence_threshold" c.styles.confidenceThreshold = .ok ()
  hybridMargin : checkUnit "styles.hybrid_margin" c.styles.hybridMargin = .ok ()
  fullCoverage : checkPositiveUnit "styles.full_coverage" c.styles.fullCoverage = .ok ()
  couplingPercentile :
    checkPositiveUnit "anti_patterns.coupling_percentile" c.antiPatterns.couplingPercentile = .ok ()
  gapThreshold : checkUnit "intents.gap_threshold" c.intents.gapThreshold = .ok ()
  weights : ∀ group ∈ c.weightGroups, checkWeights group.1 group.2 = .ok ()
  classifier : ∃ k, c.classifier = .ok k

theorem checked_of_validate (h : config.validate = .ok ()) : config.Checked := by
  obtain ⟨_, hthreshold, h⟩ := exists_of_bind_eq_ok h
  obtain ⟨_, hmargin, h⟩ := exists_of_bind_eq_ok h
  obtain ⟨_, hcoverage, h⟩ := exists_of_bind_eq_ok h
  obtain ⟨_, hpercentile, h⟩ := exists_of_bind_eq_ok h
  obtain ⟨_, hgap, h⟩ := exists_of_bind_eq_ok h
  obtain ⟨_, hweights, h⟩ := exists_of_bind_eq_ok h
  obtain ⟨k, hk, _⟩ := exists_of_bind_eq_ok h
  exact ⟨hthreshold, hmargin, hcoverage, hpercentile, hgap, ok_of_forM hweights, k, hk⟩

theorem classifier_of_validate (h : config.validate = .ok ()) : ∃ k, config.classifier = .ok k :=
  (checked_of_validate h).classifier

theorem le_of_checkUnit {field : String} {x : α} (h : checkUnit field x = .ok ()) :
    (0.0 : α) ≤ x := by
  rw [checkUnit] at h
  split at h
  · simp_all [Scalar.inUnit]
  · cases h

theorem not_sum_le_of_checkWeights {group : String} {weights : List (String × α)}
    (h : checkWeights group weights = .ok ()) : ¬ Scalar.sum (weights.map (·.2)) ≤ (0.0 : α) := by
  obtain ⟨_, _, h⟩ := exists_of_bind_eq_ok h
  intro hle
  rw [if_pos hle] at h
  cases h

end Config

namespace Pipeline

variable {α : Type} [Scalar α] {p : Pipeline α} {config : Config α}

/-- The pipeline of a validated configuration. -/
theorem standard_eq (h : config.validate = .ok ()) :
    ∃ k, config.classifier = .ok k ∧ standard config = .ok ⟨config, .ofClassifier config k⟩ := by
  obtain ⟨k, hk⟩ := Config.classifier_of_validate h
  refine ⟨k, hk, ?_⟩
  rw [standard, h, Registry.builtin_eq hk]
  rfl

/-- A validated configuration makes a pipeline that runs to its end. -/
theorem standard_of_validate (h : config.validate = .ok ()) :
    ∃ p, standard config = .ok p ∧ p.registry.Uninterrupted := by
  obtain ⟨k, _, hstandard⟩ := standard_eq h
  exact ⟨_, hstandard, Registry.uninterrupted_ofClassifier config k⟩

-- ---------------------------------------------------------------------------
-- Reports
-- ---------------------------------------------------------------------------

/-- The report of a build when all detectors have run. -/
def reportOf (p : Pipeline α) (build : GraphBuild α) : Report α :=
  let intents := p.registry.intents.map fun d => d.detect build.graph
  p.report build intents (p.registry.styles.map fun d => d.detect build.graph intents)

theorem analyze_of_ok (hp : p.registry.Uninterrupted) {records : List ComponentRecord}
    {build : GraphBuild α} (h : GraphBuild.ofRecords records = .ok build) :
    p.analyze records = .ok (p.reportOf build) := by
  have hintents : p.registry.intents.any (·.cancels) = false := by
    simpa using hp.intents
  have hstyles : p.registry.styles.any (·.cancels) = false := by
    simpa using hp.styles
  simp only [analyze, run, Run.enter, h, hintents, hstyles, Bool.false_or, Bool.false_eq_true,
    if_false, reportOf]

theorem analyze_of_error {records : List ComponentRecord} {e : RecordError}
    (h : (GraphBuild.ofRecords records : Except RecordError (GraphBuild α)) = .error e) :
    p.analyze records = .error (.input (.record e)) := by
  simp only [analyze, run, Run.enter, h, Bool.false_eq_true, if_false]

end Pipeline

/-- What each stage of a standard analysis puts into the report. -/
structure Report.Stages {α : Type} [Scalar α] (config : Config α) (records : List ComponentRecord)
    (r : Report α) : Prop where
  build : GraphBuild.ofRecords records = .ok ⟨r.graph, r.diagnostics⟩
  intents : ∃ k, config.classifier = .ok k ∧ r.intents =
    [Separation.detect k config.intents.separationWeights r.graph,
     Hiding.detect config.intents.hidingWeights r.graph,
     Inversion.detect k config.intents.inversionWeights r.graph]
  health : r.overallHealthScore = overallHealth r.intents config.intents.healthWeights
  styles : r.styles = StyleTable.builtin.map fun t => t.detect config.styles r.graph r.intents
  classification : r.classification = .ofResults config.styles r.styles
  violations : r.violations =
    AntiPattern.detect config.antiPatterns r.graph r.styles r.classification
      ++ (r.styles.filter (r.classification.styles.contains ·.style)).flatMap (·.violations)
  recommendations : r.recommendations =
    Recommendation.recommend config.intents.gapThreshold r.violations r.intents

namespace Report.Stages

variable {α : Type} [Scalar α] {config : Config α} {records : List ComponentRecord} {r : Report α}

/-- There is one result for each style, in the order of styles. -/
theorem map_style (h : r.Stages config records) : r.styles.map (·.style) = Named.all := by
  rw [h.styles, List.map_map]
  have hstyle : (fun t => (t.detect config.styles r.graph r.intents).style) = StyleTable.style := by
    funext t
    exact t.style_detect config.styles r.graph r.intents
  exact (congrArg (StyleTable.builtin.map ·) hstyle).trans (by decide)

theorem nodup_style (h : r.Stages config records) : (r.styles.map (·.style)).Nodup := by
  rw [h.map_style]
  decide

/-- Every result is that of a table. -/
theorem exists_table (h : r.Stages config records) {s : StyleResult α} (hs : s ∈ r.styles) :
    ∃ t : StyleTable, s = t.detect config.styles r.graph r.intents := by
  rw [h.styles] at hs
  obtain ⟨t, _, rfl⟩ := List.mem_map.1 hs
  exact ⟨t, rfl⟩

theorem build_of_ascending (h : r.Stages config records)
    (hnone : firstProblem? 0 [] records = none)
    (hascending : records.Pairwise (·.componentId < ·.componentId)) :
    GraphBuild.ofSorted records = ⟨r.graph, r.diagnostics⟩ := by
  have hbuild := h.build
  rw [GraphBuild.ofRecords_of_ascending hnone hascending] at hbuild
  exact Except.ok.inj hbuild

end Report.Stages

namespace Pipeline

variable {α : Type} [Scalar α] {config : Config α}

theorem stages_reportOf {records : List ComponentRecord} {build : GraphBuild α}
    (hbuild : GraphBuild.ofRecords records = .ok build) {k : LayerClassifier}
    (hk : config.classifier = .ok k) :
    (reportOf ⟨config, .ofClassifier config k⟩ build).Stages config records where
  build := hbuild
  intents := ⟨k, hk, rfl⟩
  health := rfl
  styles := List.map_map
  classification := rfl
  violations := rfl
  recommendations := rfl

theorem validate_of_standard {p : Pipeline α} (h : standard config = .ok p) :
    config.validate = .ok () := by
  obtain ⟨_, hvalid, _⟩ := exists_of_bind_eq_ok h
  exact hvalid

/-- Every report of a standard analysis is the outcome of its stages. -/
theorem stages_of_analyze {p : Pipeline α} (hp : standard config = .ok p)
    {records : List ComponentRecord} {report : Report α} (h : p.analyze records = .ok report) :
    report.Stages config records := by
  obtain ⟨k, hk, hstandard⟩ := standard_eq (validate_of_standard hp)
  cases hp.symm.trans hstandard
  cases hbuild : (GraphBuild.ofRecords records : Except RecordError (GraphBuild α)) with
  | error e =>
    rw [analyze_of_error hbuild] at h
    cases h
  | ok build =>
    rw [analyze_of_ok (Registry.uninterrupted_ofClassifier config k) hbuild] at h
    cases h
    exact stages_reportOf hbuild hk

/-- What every report of the stages has, the analysis of accepted records ensures. -/
theorem standard_ensures (hconfig : config.validate = .ok ())
    {P : List ComponentRecord → Report α → Prop}
    (h : ∀ records report, Report.Stages config records report → P records report) :
    ∃ p, standard config = .ok p ∧
      ∀ records, Accepted records → ∃ report, p.analyze records = .ok report ∧ P records report := by
  obtain ⟨p, hp, hrun⟩ := standard_of_validate hconfig
  refine ⟨p, hp, ?_⟩
  intro records haccepted
  have hreport := analyze_of_ok hrun (GraphBuild.ofRecords_eq_ok_iff.2 ⟨haccepted, rfl⟩)
  exact ⟨_, hreport, h records _ (stages_of_analyze hp hreport)⟩

end Pipeline

-- ---------------------------------------------------------------------------
-- An eroded system
-- ---------------------------------------------------------------------------

namespace Report

/-- A component that imports others. -/
def importer (id : ComponentId) (targets : List String) : ComponentRecord :=
  ⟨id, id, id, 1, .empty, .empty, targets.map (⟨·, .imports, []⟩), false, false⟩

/-- Three layers of which the highest and the lowest depend on each other, and a
    reference that leads nowhere. -/
def erodedRecords : List ComponentRecord :=
  [importer "db" ["ui"], importer "service" ["db", "lost"], importer "ui" ["db", "service"],
   importer "web" ["service"]]

def erodedGraph : Graph Float :=
  (GraphBuild.ofSorted erodedRecords).graph

theorem firstProblem?_erodedRecords : firstProblem? 0 [] erodedRecords = none := by
  decide

theorem accepted_erodedRecords : Accepted erodedRecords :=
  (firstProblem?_eq_none_iff.1 firstProblem?_erodedRecords).1

theorem Stages.build_eroded {config : Config Float} {r : Report Float}
    (h : r.Stages config erodedRecords) :
    GraphBuild.ofSorted erodedRecords = ⟨r.graph, r.diagnostics⟩ :=
  h.build_of_ascending firstProblem?_erodedRecords (by decide)

theorem Stages.graph_eq_erodedGraph {config : Config Float} {r : Report Float}
    (h : r.Stages config erodedRecords) : r.graph = erodedGraph :=
  (congrArg GraphBuild.graph h.build_eroded).symm

theorem Stages.diagnostics_eq_eroded {config : Config Float} {r : Report Float}
    (h : r.Stages config erodedRecords) :
    r.diagnostics = (GraphBuild.ofSorted erodedRecords : GraphBuild Float).diagnostics :=
  (congrArg GraphBuild.diagnostics h.build_eroded).symm

end Report

end ArchAudit
