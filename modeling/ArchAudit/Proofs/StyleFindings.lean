-- SUMMARY: The violations of a report that name a style agree with the results of the styles.
import ArchAudit.Proofs.Findings
import ArchAudit.Proofs.StandardAnalysis

/-!
# Findings about styles

A style that describes the system shows in the violations of a report twice: its layer
violations are listed, and one erosion sums them up. The list is filtered by the
classification and the erosions look their results up by it. Both meet because every style
has one result and the classification names it once.
-/

namespace ArchAudit

/-- A key that occurs once selects one element. -/
theorem filter_key_eq_singleton {β κ : Type} [DecidableEq κ] {key : β → κ} {l : List β} {b : β}
    (hkeys : (l.map key).Nodup) (hb : b ∈ l) : l.filter (key · = key b) = [b] := by
  induction l with
  | nil => cases hb
  | cons c l ih =>
    obtain ⟨hc, hkeys⟩ := List.nodup_cons.1 hkeys
    rcases List.mem_cons.1 hb with rfl | hb
    · have hothers : l.filter (key · = key b) = [] := by
        rw [List.filter_eq_nil_iff]
        intro d hd
        simpa using fun heq => hc (List.mem_map.2 ⟨d, hd, heq⟩)
      simp [hothers]
    · have hne : key c ≠ key b := fun heq => hc (List.mem_map.2 ⟨b, hb, heq.symm⟩)
      simp [hne, ih hkeys hb]

/-- A look-up by distinct keys finds the element with the key. -/
theorem find?_key_eq_some_iff {β κ : Type} [DecidableEq κ] {key : β → κ} {l : List β} {k : κ}
    {b : β} (hkeys : (l.map key).Nodup) : l.find? (key · = k) = some b ↔ b ∈ l ∧ key b = k := by
  constructor
  · intro h
    exact ⟨List.mem_of_find?_eq_some h, by simpa using List.find?_some h⟩
  · rintro ⟨hb, rfl⟩
    rw [← List.head?_filter, filter_key_eq_singleton hkeys hb, List.head?_cons]

/-- What is looked up by a list of keys stands in the order of the keys. -/
theorem map_filterMap_find?_sublist {β κ : Type} [DecidableEq κ] (key : β → κ) (l : List β)
    (keys : List κ) : ((keys.filterMap fun k => l.find? (key · = k)).map key).Sublist keys := by
  induction keys with
  | nil => exact List.Sublist.refl _
  | cons k keys ih =>
    cases hb : l.find? (key · = k) with
    | none =>
      simp only [List.filterMap_cons, hb]
      exact ih.cons _
    | some b =>
      have hkey : key b = k := by simpa using List.find?_some hb
      simp only [List.filterMap_cons, hb, List.map_cons, hkey]
      exact ih.cons_cons _

-- ---------------------------------------------------------------------------
-- Classification
-- ---------------------------------------------------------------------------

namespace Classification

variable {α : Type} [Scalar α]

/-- A classification names styles that qualify, in their order. -/
theorem styles_ofResults_sublist (config : StyleConfig α) (results : List (StyleResult α)) :
    (ofResults config results).styles.Sublist ((qualifying config results).map (·.1)) := by
  unfold ofResults
  cases hranked : qualifying config results with
  | nil => exact List.nil_sublist _
  | cons top rest =>
    cases rest with
    | nil => exact List.Sublist.refl _
    | cons next rest =>
      dsimp only
      split
      · exact List.filter_sublist.map _
      · exact (List.nil_sublist _).cons_cons _

/-- Of a result, only its style and confidence decide whether it qualifies. -/
theorem qualifying_eq (config : StyleConfig α) (results : List (StyleResult α)) :
    qualifying config results =
      ((results.map fun r => (r.style, r.confidence)).filter fun x =>
        config.confidenceThreshold < x.2).mergeSort precedes := by
  rw [List.filter_map]
  rfl

theorem nodup_styles_ofResults (config : StyleConfig α) {results : List (StyleResult α)}
    (h : (results.map (·.style)).Nodup) : (ofResults config results).styles.Nodup := by
  refine (styles_ofResults_sublist config results).nodup ?_
  rw [qualifying, ((List.mergeSort_perm _ _).map _).nodup_iff, List.map_map]
  exact (List.filter_sublist.map _).nodup h

end Classification

-- ---------------------------------------------------------------------------
-- Erosion
-- ---------------------------------------------------------------------------

namespace AntiPattern

variable {α : Type} [Scalar α] {styles : List (StyleResult α)} {c : Classification}

/-- Findings about the graph alone are of other kinds than those about styles. -/
theorem kind_of_mem_structural {config : AntiPatternConfig α} {g : Graph α} {v : Violation α}
    (h : v ∈ cycles g ++ tightCoupling config g ++ bidirectionalCoupling g
      ++ godComponents config g) : v.kind ≠ .erosion ∧ v.kind ≠ .layerViolation := by
  simp only [List.mem_append] at h
  rcases h with ((h | h) | h) | h
  all_goals
    obtain ⟨i, _, rfl⟩ := List.mem_mapIdx.1 h
    exact ⟨nofun, nofun⟩

omit [Scalar α] in
theorem mem_eroded (hstyles : (styles.map (·.style)).Nodup) {s : StyleResult α} :
    s ∈ eroded styles c ↔ (s ∈ styles ∧ s.style ∈ c.styles) ∧
      0 < s.metrics.violatingEdges ∧ 0 < s.metrics.inScopeEdges := by
  simp only [eroded, List.mem_filter, List.mem_filterMap, find?_key_eq_some_iff hstyles,
    Bool.and_eq_true, decide_eq_true_iff]
  refine and_congr_left fun _ => ⟨?_, ?_⟩
  · rintro ⟨_, hk, hs, rfl⟩
    exact ⟨hs, hk⟩
  · rintro ⟨hs, hk⟩
    exact ⟨s.style, hk, hs, rfl⟩

/-- Every erosion sums up the violations of a result. -/
theorem exists_of_mem_erosion {v : Violation α} (h : v ∈ erosion styles c) :
    ∃ s ∈ eroded styles c, v.kind = .erosion ∧ v.style = some s.style ∧
      v.participants = ascendingNames (s.violations.flatMap (·.participants)) := by
  obtain ⟨i, hi, rfl⟩ := List.mem_mapIdx.1 h
  exact ⟨_, List.getElem_mem hi, rfl, rfl, rfl⟩

theorem map_style_erosion (styles : List (StyleResult α)) (c : Classification) :
    (erosion styles c).map (·.style) = ((eroded styles c).map (·.style)).map some := by
  rw [List.map_map]
  apply map_mapIdx_eq_map
  intro i r
  rfl

theorem nodup_style_erosion (hc : c.styles.Nodup) : ((erosion styles c).map (·.style)).Nodup := by
  rw [map_style_erosion]
  have hsublist : ((eroded styles c).map (·.style)).Sublist c.styles :=
    (List.filter_sublist.map _).trans (map_filterMap_find?_sublist _ styles c.styles)
  exact (hsublist.nodup hc).map (Option.some_injective _)

end AntiPattern

-- ---------------------------------------------------------------------------
-- Reports
-- ---------------------------------------------------------------------------

namespace Report

variable {α : Type}

/-- The violations of a kind that name a style. -/
def violationsIn (r : Report α) (kind : ViolationKind) (style : StyleKind) : List (Violation α) :=
  r.violations.filter fun v => v.kind = kind && v.style = some style

theorem mem_violationsIn {r : Report α} {kind : ViolationKind} {style : StyleKind}
    {v : Violation α} :
    v ∈ r.violationsIn kind style ↔ v ∈ r.violations ∧ v.kind = kind ∧ v.style = some style := by
  simp [violationsIn]

theorem filter_eq_nil_of_kind_ne {kind : ViolationKind} {style : StyleKind}
    {l : List (Violation α)} (h : ∀ v ∈ l, v.kind ≠ kind) :
    l.filter (fun v => v.kind = kind && v.style = some style) = [] := by
  rw [List.filter_eq_nil_iff]
  intro v hv
  simp [h v hv]

/-- The layer violations of the styles that describe the system. -/
def describedViolations (r : Report α) : List (Violation α) :=
  (r.styles.filter (r.classification.styles.contains ·.style)).flatMap (·.violations)

/-- The report lists the layer violations of a result as they are, and has one erosion
    for them if there are any. -/
structure AccountsFor (r : Report α) (s : StyleResult α) : Prop where
  listed : r.violationsIn .layerViolation s.style = s.violations
  counted : (r.violationsIn .layerViolation s.style).length = s.metrics.violatingEdges
  eroded_iff : (∃ e, e ∈ r.violationsIn .erosion s.style) ↔ 0 < s.metrics.violatingEdges
  sole : ∀ e ∈ r.violationsIn .erosion s.style, r.violationsIn .erosion s.style = [e]
  ascending : ∀ e ∈ r.violationsIn .erosion s.style, e.participants.Pairwise (· < ·)
  participants : ∀ e ∈ r.violationsIn .erosion s.style, ∀ id, id ∈ e.participants ↔
    ∃ v ∈ r.violationsIn .layerViolation s.style, id ∈ v.participants

/-- The violations that name a style agree with the results of the styles. -/
structure StylesInStep (r : Report α) : Prop where
  described : ∀ style ∈ r.classification.styles,
    ∃ s, r.styles.filter (·.style = style) = [s] ∧ r.AccountsFor s
  others : ∀ style ∉ r.classification.styles,
    r.violationsIn .layerViolation style = [] ∧ r.violationsIn .erosion style = []
  named : ∀ v ∈ r.violations, v.kind = .layerViolation ∨ v.kind = .erosion →
    ∃ style ∈ r.classification.styles, v.style = some style

end Report

namespace Report.Stages

variable {α : Type} [Scalar α] {config : Config α} {records : List ComponentRecord} {r : Report α}

theorem consistent (h : r.Stages config records) {s : StyleResult α} (hs : s ∈ r.styles) :
    s.Consistent := by
  obtain ⟨t, rfl⟩ := h.exists_table hs
  exact t.consistent_detect config.styles r.graph r.intents

theorem nodup_classification (h : r.Stages config records) : r.classification.styles.Nodup := by
  rw [h.classification]
  exact Classification.nodup_styles_ofResults _ h.nodup_style

theorem exists_of_mem_describedViolations (h : r.Stages config records) {v : Violation α}
    (hv : v ∈ r.describedViolations) : ∃ s ∈ r.styles, s.style ∈ r.classification.styles ∧
      v.kind = .layerViolation ∧ v.style = some s.style := by
  obtain ⟨s, hs, hv⟩ := List.mem_flatMap.1 hv
  obtain ⟨hs, hstyle⟩ := List.mem_filter.1 hs
  have hconsistent := h.consistent hs
  exact ⟨s, hs, by simpa using hstyle, hconsistent.kind v hv, hconsistent.style v hv⟩

/-- Of a kind about styles, the violations are erosions and those of the results. -/
theorem violationsIn_eq (h : r.Stages config records) {kind : ViolationKind}
    (hkind : kind = .layerViolation ∨ kind = .erosion) (style : StyleKind) :
    r.violationsIn kind style =
      (AntiPattern.erosion r.styles r.classification ++ r.describedViolations).filter
        fun v => v.kind = kind && v.style = some style := by
  have hstructural : (AntiPattern.cycles r.graph
      ++ AntiPattern.tightCoupling config.antiPatterns r.graph
      ++ AntiPattern.bidirectionalCoupling r.graph
      ++ AntiPattern.godComponents config.antiPatterns r.graph).filter
        (fun v => v.kind = kind && v.style = some style) = [] := by
    apply filter_eq_nil_of_kind_ne
    intro v hv
    obtain ⟨herosion, hlayer⟩ := AntiPattern.kind_of_mem_structural hv
    rcases hkind with rfl | rfl
    · exact hlayer
    · exact herosion
  unfold violationsIn
  rw [h.violations, AntiPattern.detect, List.append_assoc, List.filter_append, hstructural,
    List.nil_append]
  rfl

/-- The layer violations of a described style are those of its result. -/
theorem violationsIn_layerViolation (h : r.Stages config records) {s : StyleResult α}
    (hs : s ∈ r.styles) (hstyle : s.style ∈ r.classification.styles) :
    r.violationsIn .layerViolation s.style = s.violations := by
  have herosion : (AntiPattern.erosion r.styles r.classification).filter
      (fun v => v.kind = .layerViolation && v.style = some s.style) = [] := by
    apply filter_eq_nil_of_kind_ne
    intro v hv
    obtain ⟨_, _, hkind, _⟩ := AntiPattern.exists_of_mem_erosion hv
    rw [hkind]
    exact nofun
  -- A result has either all of its violations selected or none.
  have hblocks : ∀ u ∈ r.styles.filter (r.classification.styles.contains ·.style),
      ∀ v ∈ u.violations, (decide (v.kind = .layerViolation) && decide (v.style = some s.style)) =
        decide (u.style = s.style) := by
    intro u hu v hv
    have hconsistent := h.consistent (List.mem_of_mem_filter hu)
    simp [hconsistent.kind v hv, hconsistent.style v hv]
  have hkeys : ((r.styles.filter (r.classification.styles.contains ·.style)).map
      (·.style)).Nodup := (List.filter_sublist.map _).nodup h.nodup_style
  have hmem : s ∈ r.styles.filter (r.classification.styles.contains ·.style) :=
    List.mem_filter.2 ⟨hs, by simpa using hstyle⟩
  rw [h.violationsIn_eq (.inl rfl), List.filter_append, herosion, List.nil_append,
    describedViolations, filter_flatMap_blocks hblocks, filter_key_eq_singleton hkeys hmem,
    List.flatMap_singleton]

/-- The erosions of a style are those found with its name. -/
theorem violationsIn_erosion (h : r.Stages config records) (style : StyleKind) :
    r.violationsIn .erosion style =
      (AntiPattern.erosion r.styles r.classification).filter (·.style = some style) := by
  have hdescribed : r.describedViolations.filter
      (fun v => v.kind = .erosion && v.style = some style) = [] := by
    apply filter_eq_nil_of_kind_ne
    intro v hv
    obtain ⟨_, _, _, hkind, _⟩ := h.exists_of_mem_describedViolations hv
    rw [hkind]
    exact nofun
  rw [h.violationsIn_eq (.inr rfl), List.filter_append, hdescribed, List.append_nil]
  refine List.filter_congr ?_
  intro v hv
  obtain ⟨_, _, hkind, _⟩ := AntiPattern.exists_of_mem_erosion hv
  simp [hkind]

theorem mem_violationsIn_erosion (h : r.Stages config records) {style : StyleKind}
    {e : Violation α} : e ∈ r.violationsIn .erosion style ↔
      e ∈ AntiPattern.erosion r.styles r.classification ∧ e.style = some style := by
  rw [h.violationsIn_erosion, List.mem_filter, decide_eq_true_iff]

/-- An erosion of a style sums up the result of that style. -/
theorem participants_of_mem_erosion (h : r.Stages config records) {s : StyleResult α}
    (hs : s ∈ r.styles) {e : Violation α} (he : e ∈ r.violationsIn .erosion s.style) :
    s ∈ AntiPattern.eroded r.styles r.classification ∧
      e.participants = ascendingNames (s.violations.flatMap (·.participants)) := by
  obtain ⟨he, hname⟩ := h.mem_violationsIn_erosion.1 he
  obtain ⟨u, hu, _, hu_name, hparticipants⟩ := AntiPattern.exists_of_mem_erosion he
  have hmem := ((AntiPattern.mem_eroded h.nodup_style).1 hu).1.1
  have heq : u.style = s.style := Option.some.inj (hu_name.symm.trans hname)
  cases List.inj_on_of_nodup_map h.nodup_style hmem hs heq
  exact ⟨hu, hparticipants⟩

theorem exists_mem_erosion (h : r.Stages config records) {s : StyleResult α}
    (hs : s ∈ AntiPattern.eroded r.styles r.classification) :
    ∃ e, e ∈ r.violationsIn .erosion s.style := by
  have hname : some s.style ∈ (AntiPattern.erosion r.styles r.classification).map (·.style) := by
    rw [AntiPattern.map_style_erosion]
    exact List.mem_map_of_mem (List.mem_map_of_mem hs)
  obtain ⟨e, he, hname⟩ := List.mem_map.1 hname
  exact ⟨e, h.mem_violationsIn_erosion.2 ⟨he, hname⟩⟩

theorem accountsFor (h : r.Stages config records) {s : StyleResult α} (hs : s ∈ r.styles)
    (hstyle : s.style ∈ r.classification.styles) : r.AccountsFor s := by
  have hlisted := h.violationsIn_layerViolation hs hstyle
  have hconsistent := h.consistent hs
  refine ⟨hlisted, hlisted ▸ hconsistent.counted, ⟨?_, ?_⟩, ?_, ?_, ?_⟩
  · rintro ⟨e, he⟩
    have heroded := (h.participants_of_mem_erosion hs he).1
    exact ((AntiPattern.mem_eroded h.nodup_style).1 heroded).2.1
  · intro hpos
    have hscope : 0 < s.metrics.inScopeEdges :=
      Nat.lt_of_lt_of_le (hconsistent.counted ▸ hpos) hconsistent.inScope
    apply h.exists_mem_erosion
    exact (AntiPattern.mem_eroded h.nodup_style).2 ⟨⟨hs, hstyle⟩, hpos, hscope⟩
  · intro e he
    obtain ⟨he, hname⟩ := h.mem_violationsIn_erosion.1 he
    rw [h.violationsIn_erosion, ← hname]
    exact filter_key_eq_singleton (AntiPattern.nodup_style_erosion h.nodup_classification) he
  · intro e he
    rw [(h.participants_of_mem_erosion hs he).2]
    exact NameSet.ascending _
  · intro e he id
    rw [(h.participants_of_mem_erosion hs he).2, mem_ascendingNames, List.mem_flatMap, hlisted]

/-- Layer violations and erosions are about styles that describe the system. -/
theorem style_of_mem_violations (h : r.Stages config records) {v : Violation α}
    (hv : v ∈ r.violations) (hkind : v.kind = .layerViolation ∨ v.kind = .erosion) :
    ∃ style ∈ r.classification.styles, v.style = some style := by
  rw [h.violations, AntiPattern.detect] at hv
  rcases List.mem_append.1 hv with hv | hv
  · rcases List.mem_append.1 hv with hv | hv
    · obtain ⟨herosion, hlayer⟩ := AntiPattern.kind_of_mem_structural hv
      exact absurd hkind (not_or.2 ⟨hlayer, herosion⟩)
    · obtain ⟨s, hs, _, hname, _⟩ := AntiPattern.exists_of_mem_erosion hv
      exact ⟨s.style, ((AntiPattern.mem_eroded h.nodup_style).1 hs).1.2, hname⟩
  · obtain ⟨s, _, hstyle, _, hname⟩ := h.exists_of_mem_describedViolations hv
    exact ⟨s.style, hstyle, hname⟩

theorem violationsIn_eq_nil (h : r.Stages config records) {kind : ViolationKind}
    (hkind : kind = .layerViolation ∨ kind = .erosion) {style : StyleKind}
    (hstyle : style ∉ r.classification.styles) : r.violationsIn kind style = [] := by
  rw [List.eq_nil_iff_forall_not_mem]
  intro v hv
  obtain ⟨hmem, rfl, hname⟩ := mem_violationsIn.1 hv
  obtain ⟨k, hk, hk_name⟩ := h.style_of_mem_violations hmem hkind
  cases hname.symm.trans hk_name
  exact hstyle hk

theorem stylesInStep (h : r.Stages config records) : r.StylesInStep where
  described style hstyle := by
    have hmem : style ∈ r.styles.map (·.style) := by
      rw [h.map_style]
      cases style <;> decide
    obtain ⟨s, hs, rfl⟩ := List.mem_map.1 hmem
    exact ⟨s, filter_key_eq_singleton h.nodup_style hs, h.accountsFor hs hstyle⟩
  others _ hstyle :=
    ⟨h.violationsIn_eq_nil (.inl rfl) hstyle, h.violationsIn_eq_nil (.inr rfl) hstyle⟩
  named _ hv hkind := h.style_of_mem_violations hv hkind

end Report.Stages

-- ---------------------------------------------------------------------------
-- The eroded system
-- ---------------------------------------------------------------------------

namespace Report

def erodedIntents : List (IntentResult Float) :=
  let config := Config.standard Float
  match config.classifier with
  | .ok k =>
    [Separation.detect k config.intents.separationWeights erodedGraph,
     Hiding.detect config.intents.hidingWeights erodedGraph,
     Inversion.detect k config.intents.inversionWeights erodedGraph]
  | .error _ => []

def erodedStyles : List (StyleResult Float) :=
  StyleTable.builtin.map fun t =>
    t.detect (Config.standard Float).styles erodedGraph erodedIntents

theorem Stages.styles_eq_erodedStyles {r : Report Float}
    (h : r.Stages (.standard Float) erodedRecords) : r.styles = erodedStyles := by
  obtain ⟨k, hk, hintents⟩ := h.intents
  have heroded : r.intents = erodedIntents := by
    unfold erodedIntents
    rw [hintents, h.graph_eq_erodedGraph]
    simp only [hk]
  rw [h.styles, h.graph_eq_erodedGraph, heroded]
  rfl

/-- Two styles describe the system; a third is violated and does not. -/
theorem map_erodedStyles :
    erodedStyles.map (fun s => (s.style, s.confidence, s.metrics.violatingEdges)) =
      [(.layered, 0.6, 2), (.hexagonal, 0.0, 0), (.clean, 0.5, 1), (.microservices, 0.0, 1),
       (.eventDriven, 0.0, 0)] := by
  decide +kernel

theorem classification_erodedStyles :
    Classification.ofResults (Config.standard Float).styles erodedStyles =
      .hybrid [.layered, .clean] := by
  have hconfidence : erodedStyles.map (fun s => (s.style, s.confidence)) =
      [(.layered, 0.6), (.hexagonal, 0.0), (.clean, 0.5), (.microservices, 0.0),
       (.eventDriven, 0.0)] := by
    have hmap := congrArg (List.map fun x => (x.1, x.2.1)) map_erodedStyles
    rwa [List.map_map] at hmap
  have hqualifying : Classification.qualifying (Config.standard Float).styles erodedStyles =
      [(.layered, 0.6), (.clean, 0.5)] := by
    rw [Classification.qualifying_eq, hconfidence]
    exact List.mergeSort_of_pairwise (by decide +kernel)
  unfold Classification.ofResults
  rw [hqualifying]
  decide +kernel

end Report

namespace Pipeline

variable {α : Type} [Scalar α]

/-- With the built-in detectors of a validated configuration, accepted records get a
    report whose violations agree with the results of the styles. -/
theorem analyze_styles_in_step {config : Config α} (hconfig : config.validate = .ok ()) :
    ∃ p, standard config = .ok p ∧
      ∀ records, Accepted records →
        ∃ report, p.analyze records = .ok report ∧ report.StylesInStep :=
  standard_ensures hconfig fun _ _ hstages => hstages.stylesInStep

theorem analyze_styles_in_step_erodedRecords :
    ∃ p, standard (.standard Float) = .ok p ∧ Accepted Report.erodedRecords ∧
      ∃ report, p.analyze Report.erodedRecords = .ok report ∧
        report.classification = .hybrid [.layered, .clean] ∧
        report.styles.map (fun s => (s.style, s.metrics.violatingEdges)) =
          [(.layered, 2), (.hexagonal, 0), (.clean, 1), (.microservices, 1), (.eventDriven, 0)] ∧
        report.StylesInStep := by
  obtain ⟨p, hp, hensured⟩ := analyze_styles_in_step Config.validate_standard
  obtain ⟨report, hreport, hstep⟩ := hensured _ Report.accepted_erodedRecords
  have hstages := stages_of_analyze hp hreport
  refine ⟨p, hp, Report.accepted_erodedRecords, report, hreport, ?_, ?_, hstep⟩
  · rw [hstages.classification, hstages.styles_eq_erodedStyles]
    exact Report.classification_erodedStyles
  · have hmap := congrArg (List.map fun x => (x.1, x.2.2)) Report.map_erodedStyles
    rw [List.map_map] at hmap
    rw [hstages.styles_eq_erodedStyles]
    exact hmap

end Pipeline

end ArchAudit
