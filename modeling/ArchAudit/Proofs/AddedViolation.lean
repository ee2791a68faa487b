-- SUMMARY: One more rejected pair makes one more violation and lowers the exact confidence in the style.
import ArchAudit.Proofs.Betweenness
import ArchAudit.Proofs.ExactScalars
import ArchAudit.Proofs.JudgedPairs
import ArchAudit.Proofs.StandardAnalysis
import Mathlib.Tactic.Positivity

/-!
# One more violation

When an edge joins one more pair of components, everything else staying as it is, the pair takes
its place among the judged ones and shifts those behind it. If the rule rejects it, the
violations are the same as before, with one more among them, and the later ones are renumbered.
The compliant pairs are then a smaller share of those in scope, so that the confidence, read in
exact arithmetic, falls unless it was zero.
-/

namespace ArchAudit

/-! ## One more pair -/

/-- An ascending list with one more pair is the other one with the pair put in its place. -/
theorem exists_split_of_mem_iff {l l' : List (ComponentId × ComponentId)}
    {p : ComponentId × ComponentId} (h : l.Pairwise PairBefore) (h' : l'.Pairwise PairBefore)
    (hfresh : p ∉ l) (hmem : ∀ q, q ∈ l' ↔ q ∈ l ∨ q = p) :
    ∃ front back, l = front ++ back ∧ l' = front ++ p :: back := by
  obtain ⟨front, back, rfl⟩ := List.append_of_mem ((hmem p).2 (.inr rfl))
  have hsublist : (front ++ back).Sublist (front ++ p :: back) :=
    (List.sublist_cons_self p back).append_left front
  refine ⟨front, back, pairs_eq_of_mem_iff h (h'.sublist hsublist) ?_, rfl⟩
  intro q
  constructor
  · intro hq
    have hne : q ≠ p := fun heq => hfresh (heq ▸ hq)
    simpa [hne] using (hmem q).2 (.inl hq)
  · intro hq
    rcases (hmem q).1 (hsublist.subset hq) with hold | rfl
    · exact hold
    · -- a pair does not precede itself, so it stands in the longer list once
      have hbefore := (List.pairwise_append.1 h').2.2
      have hafter := (List.pairwise_cons.1 (List.pairwise_append.1 h').2.1).1
      rcases List.mem_append.1 hq with hfront | hback
      · have hself := hbefore q hfront q List.mem_cons_self
        exact absurd hself hself.asymm
      · have hself := hafter q hback
        exact absurd hself hself.asymm

namespace Graph

variable {α : Type}

/-- Where the components lie. -/
def locations (g : Graph α) : List (ComponentId × String) :=
  g.components.map fun c => (c.id, c.filePath)

theorem joins_iff_mem_map {g : Graph α} {a b : ComponentId} :
    g.Joins a b ↔ (a, b) ∈ g.edges.map fun e => (e.source, e.target) := by
  simp [Joins]

end Graph

/-- What a style is detected in: a graph built from records, and the intents found in it. -/
structure Survey (α : Type) [Scalar α] where
  graph : Graph α
  intents : List (IntentResult α)
  built : ∃ records diagnostics, GraphBuild.ofRecords records = .ok ⟨graph, diagnostics⟩

namespace Survey

variable {α : Type} [Scalar α]

theorem wellFormed (s : Survey α) : s.graph.WellFormed := by
  obtain ⟨_, _, hbuild⟩ := s.built
  exact GraphBuild.wellFormed_of_ofRecords hbuild

def result (s : Survey α) (t : StyleTable) (config : StyleConfig α) : StyleResult α :=
  t.detect config s.graph s.intents

end Survey

/-- The second graph joins one more pair of components than the first, which the rule rejects.
    The components, and the roles they are given, are otherwise the same. -/
structure StyleTable.AddsRejectedPair {α : Type} [Scalar α] (t : StyleTable)
    (config : StyleConfig α) (before after : Survey α) (a b : ComponentId) : Prop where
  locations : after.graph.locations = before.graph.locations
  roles : (after.result t config).roleAssignment = (before.result t config).roleAssignment
  distinct : a ≠ b
  fresh : ¬ before.graph.Joins a b
  joins : ∀ x y, x ≠ y → (after.graph.Joins x y ↔ before.graph.Joins x y ∨ x = a ∧ y = b)
  rejected : t.Rejects before.graph (before.result t config).roleAssignment a b

/-! ## Judgements -/

/-- A violation apart from its number. -/
def Violation.withoutId {α : Type} (v : Violation α) : Violation α :=
  { v with id := "" }

namespace StyleTable

variable {α : Type} [Scalar α] {t : StyleTable} {g g' : Graph α} {roles : NameMap Role}
  {a b : ComponentId}

omit [Scalar α] in
/-- A rule sees no more of the graph than where the components lie. -/
theorem endpoint?_congr (h : g'.locations = g.locations) :
    endpoint? g' roles = endpoint? g roles := by
  have hservice : ∀ (g : Graph α) id, ((g.component? id).bind fun c => serviceKey c.filePath) =
      (g.locations.find? (·.1 == id)).bind fun location => serviceKey location.2 := by
    intro g id
    rw [Graph.locations, List.find?_map, Option.bind_map]
    rfl
  funext id
  rw [endpoint?, endpoint?, hservice, hservice, h]

/-- What the rule says of two components, if both have a role. -/
def judgePair? (t : StyleTable) (g : Graph α) (roles : NameMap Role)
    (p : ComponentId × ComponentId) : Option (Judged α) := do
  let a ← endpoint? g roles p.1
  let b ← endpoint? g roles p.2
  return ⟨p.1, p.2, a.role, b.role, t.rule.check a b⟩

theorem judge_eq (t : StyleTable) (g : Graph α) (roles : NameMap Role) :
    t.judge g roles = g.arcs.filterMap (t.judgePair? g roles) :=
  rfl

theorem judgePair?_congr (h : g'.locations = g.locations) :
    t.judgePair? g' roles = t.judgePair? g roles := by
  unfold judgePair?
  rw [endpoint?_congr h]

theorem Rejects.exists_judged (hg : g.WellFormed) (h : t.Rejects g roles a b) :
    ∃ j, t.judgePair? g roles (a, b) = some j ∧ j.pair = (a, b) ∧ j.isAllowed = false := by
  obtain ⟨c, hc, d, hd, source, target, rfl, rfl, hsource, htarget, hverdict⟩ := h
  refine ⟨⟨c.id, d.id, source, target, t.rule.check ⟨source, serviceKey c.filePath⟩
    ⟨target, serviceKey d.filePath⟩⟩, ?_, rfl, Judged.isAllowed_eq_false_iff.2 hverdict⟩
  simp [judgePair?, endpoint?_of_mem hg hc, endpoint?_of_mem hg hd, hsource, htarget]

/-- The added pair is one more arc among the others. -/
theorem AddsRejectedPair.mem_arcs {config : StyleConfig α} {before after : Survey α}
    (h : t.AddsRejectedPair config before after a b) (p : ComponentId × ComponentId) :
    p ∈ after.graph.arcs ↔ p ∈ before.graph.arcs ∨ p = (a, b) := by
  obtain ⟨x, y⟩ := p
  rw [after.wellFormed.mem_arcs, before.wellFormed.mem_arcs, Prod.mk.injEq]
  constructor
  · rintro ⟨hne, hjoins⟩
    exact ((h.joins x y hne).1 hjoins).imp_left (⟨hne, ·⟩)
  · rintro (⟨hne, hjoins⟩ | ⟨rfl, rfl⟩)
    · exact ⟨hne, (h.joins x y hne).2 (.inl hjoins)⟩
    · exact ⟨h.distinct, (h.joins x y h.distinct).2 (.inr ⟨rfl, rfl⟩)⟩

/-- The added pair is one more judgement among the others. -/
theorem AddsRejectedPair.judge_split {config : StyleConfig α} {before after : Survey α}
    (h : t.AddsRejectedPair config before after a b) :
    ∃ front j back,
      t.judge before.graph (before.result t config).roleAssignment = front ++ back ∧
      t.judge after.graph (after.result t config).roleAssignment = front ++ j :: back ∧
      j.pair = (a, b) ∧ j.isAllowed = false := by
  have hfresh : (a, b) ∉ before.graph.arcs :=
    fun hmem => h.fresh (before.wellFormed.mem_arcs.1 hmem).2
  obtain ⟨front, back, hold, hmore⟩ := exists_split_of_mem_iff before.wellFormed.pairwise_arcs
    after.wellFormed.pairwise_arcs hfresh h.mem_arcs
  obtain ⟨j, hj, hpair, hrejected⟩ := h.rejected.exists_judged before.wellFormed
  rw [h.roles, judge_eq, judge_eq, judgePair?_congr h.locations, hold, hmore,
    List.filterMap_append, List.filterMap_append, List.filterMap_cons_some hj]
  exact ⟨_, j, _, rfl, rfl, hpair, hrejected⟩

/-- The violation that a judgement gives rise to, apart from its number. -/
def unnumbered? (t : StyleTable) (j : Judged α) : Option (Violation α) :=
  match j.verdict with
  | .allowed => none
  | .violates severity => some (t.violation 0 j severity).withoutId

theorem map_withoutId_violations (t : StyleTable) (judged : List (Judged α)) :
    (t.violations judged).map Violation.withoutId = judged.filterMap t.unnumbered? := by
  have hrejected : (t.violations judged).map Violation.withoutId =
      (rejected judged).map fun x => (t.violation 0 x.1 x.2).withoutId := by
    apply map_mapIdx_eq_map
    intro i x
    rfl
  rw [hrejected, rejected, List.map_filterMap]
  apply List.filterMap_congr
  intro j _
  unfold unnumbered?
  cases j.verdict <;> rfl

theorem exists_unnumbered {j : Judged α} (h : j.isAllowed = false) :
    ∃ v, t.unnumbered? j = some v ∧ v.participants = [j.source, j.target] := by
  cases hverdict : j.verdict with
  | allowed => exact absurd hverdict (Judged.isAllowed_eq_false_iff.1 h)
  | violates severity =>
    exact ⟨(t.violation 0 j severity).withoutId, by rw [unnumbered?, hverdict], rfl⟩

/-! ## Confidence -/

/-- The confidence of a result is computed from what it counts. -/
theorem confidence_result (t : StyleTable) (config : StyleConfig α) (s : Survey α) :
    (s.result t config).confidence =
      confidence config (s.result t config).metrics.classifiedComponents
        (s.result t config).metrics.inScopeEdges (s.result t config).metrics.compliantEdges
        (((s.result t config).metrics.classifiedComponents : α) / (s.graph.size : α)) := by
  unfold Survey.result detect
  split
  · exact (if_pos (.inr rfl)).symm
  · rfl

/-- How much of full coverage is reached. -/
def coverageShare (config : StyleConfig Rat) (coverage : Rat) : Rat :=
  Scalar.least (coverage / config.fullCoverage) 1.0

variable {config : StyleConfig Rat} {coverage : Rat} {classified inScope compliant : Nat}

theorem coverageShare_mem (hfull : 0 < config.fullCoverage) (hcoverage : 0 ≤ coverage) :
    coverageShare config coverage ∈ Set.Icc 0 1 := by
  rw [coverageShare, Scalar.least_rat, Scalar.one_rat]
  exact ⟨le_min (div_nonneg hcoverage hfull.le) zero_le_one, min_le_right _ _⟩

/-- In exact arithmetic nothing is clipped, and without pairs in scope the quotient is zero
    anyway. -/
theorem confidence_eq (hfull : 0 < config.fullCoverage) (hcoverage : 0 ≤ coverage)
    (hcompliant : compliant ≤ inScope) :
    confidence config classified inScope compliant coverage =
      if classified < config.minClassifiedComponents then 0
      else (compliant : Rat) / inScope * coverageShare config coverage := by
  obtain ⟨hnonneg, hle⟩ := coverageShare_mem hfull hcoverage
  have hratio : (compliant : Rat) / inScope ≤ 1 :=
    div_le_one_of_le₀ (Nat.cast_le.2 hcompliant) (Nat.cast_nonneg _)
  have hpositive : 0 ≤ (compliant : Rat) / inScope := by positivity
  rw [confidence, Scalar.zero_rat]
  rcases Nat.lt_or_ge classified config.minClassifiedComponents with hfew | hmany
  · rw [if_pos (.inl hfew), if_pos hfew]
  · rw [if_neg hmany.not_gt]
    rcases Nat.eq_zero_or_pos inScope with rfl | hpos
    · rw [if_pos (.inr rfl), Nat.cast_zero, div_zero, zero_mul]
    · rw [if_neg (not_or.2 ⟨hmany.not_gt, hpos.ne'⟩), complianceRatio, if_neg hpos.ne']
      exact Scalar.clampUnit_of_mem
        ⟨mul_nonneg hpositive hnonneg, mul_le_one₀ hratio hnonneg hle⟩

/-- One more pair in scope that does not comply lowers the confidence. -/
theorem confidence_succ (hfull : 0 < config.fullCoverage) (hcoverage : 0 ≤ coverage)
    (hcompliant : compliant ≤ inScope) :
    confidence config classified (inScope + 1) compliant coverage ≤
        confidence config classified inScope compliant coverage ∧
      (0 < confidence config classified inScope compliant coverage →
        confidence config classified (inScope + 1) compliant coverage <
          confidence config classified inScope compliant coverage) := by
  obtain ⟨hnonneg, _⟩ := coverageShare_mem hfull hcoverage
  rw [confidence_eq hfull hcoverage hcompliant,
    confidence_eq hfull hcoverage (Nat.le_succ_of_le hcompliant)]
  rcases Nat.lt_or_ge classified config.minClassifiedComponents with hfew | hmany
  · simp only [if_pos hfew]
    exact ⟨le_rfl, id⟩
  · simp only [if_neg hmany.not_gt]
    rcases Nat.eq_zero_or_pos compliant with rfl | hpos
    · simp
    · have hscope : (0 : Rat) < inScope := Nat.cast_pos.2 (hpos.trans_le hcompliant)
      have hlt : (compliant : Rat) / ((inScope + 1 : Nat) : Rat) < compliant / inScope :=
        div_lt_div_of_pos_left (Nat.cast_pos.2 hpos) hscope (Nat.cast_lt.2 (Nat.lt_succ_self _))
      refine ⟨mul_le_mul_of_nonneg_right hlt.le hnonneg, fun hconfident => ?_⟩
      have hshare : 0 < coverageShare config coverage :=
        pos_of_mul_pos_right hconfident (by positivity)
      exact mul_lt_mul_of_pos_right hlt hshare

end StyleTable

/-! ## Results -/

/-- The second result lists one more violation, of the given pair. The others are the same and
    stand in the same order, though their numbers shift. -/
structure StyleResult.GainsViolation {α : Type} (r r' : StyleResult α) (a b : ComponentId) :
    Prop where
  count : r'.violations.length = r.violations.length + 1
  others : ∃ front added back,
    r.violations.map Violation.withoutId = front ++ back ∧
    r'.violations.map Violation.withoutId = front ++ added :: back ∧
    added.participants = [a, b]

namespace StyleTable.AddsRejectedPair

variable {t : StyleTable} {a b : ComponentId}

theorem gainsViolation {α : Type} [Scalar α] {config : StyleConfig α} {before after : Survey α}
    (h : t.AddsRejectedPair config before after a b) :
    (before.result t config).GainsViolation (after.result t config) a b := by
  obtain ⟨front, j, back, hold, hmore, hpair, hrejected⟩ := h.judge_split
  obtain ⟨added, hadded, hparticipants⟩ := exists_unnumbered (t := t) hrejected
  have hbefore : (before.result t config).violations.map Violation.withoutId =
      front.filterMap t.unnumbered? ++ back.filterMap t.unnumbered? := by
    rw [Survey.result, violations_detect, map_withoutId_violations, ← List.filterMap_append]
    exact congrArg _ hold
  have hafter : (after.result t config).violations.map Violation.withoutId =
      front.filterMap t.unnumbered? ++ added :: back.filterMap t.unnumbered? := by
    rw [Survey.result, violations_detect, map_withoutId_violations,
      ← List.filterMap_cons_some hadded, ← List.filterMap_append]
    exact congrArg _ hmore
  cases hpair
  refine ⟨?_, _, added, _, hbefore, hafter, hparticipants⟩
  have hlength := congrArg List.length hafter
  rw [List.length_map, List.length_append, List.length_cons, ← Nat.add_assoc,
    ← List.length_append, ← hbefore, List.length_map] at hlength
  exact hlength

/-- The added pair is in scope and does not comply. -/
theorem counts {α : Type} [Scalar α] {config : StyleConfig α} {before after : Survey α}
    (h : t.AddsRejectedPair config before after a b) :
    let old := (before.result t config).metrics
    let new := (after.result t config).metrics
    new.classifiedComponents = old.classifiedComponents ∧
      new.inScopeEdges = old.inScopeEdges + 1 ∧ new.compliantEdges = old.compliantEdges ∧
        old.compliantEdges ≤ old.inScopeEdges := by
  obtain ⟨front, j, back, hold, hmore, _, hrejected⟩ := h.judge_split
  have hroles := h.roles
  obtain ⟨hscope, hcompliant, _, hclassified⟩ :=
    metrics_detect t config before.graph before.intents
  obtain ⟨hscope', hcompliant', _, hclassified'⟩ :=
    metrics_detect t config after.graph after.intents
  unfold Survey.result at *
  refine ⟨?_, ?_, ?_, ?_⟩
  · rw [hclassified, hclassified', hroles]
  · rw [hscope, hscope', hold, hmore, List.length_append, List.length_append]
    rfl
  · rw [hcompliant, hcompliant', hold, hmore, List.filter_append, List.filter_append,
      List.filter_cons_of_neg (by simp [hrejected])]
  · rw [hcompliant, hscope]
    exact List.length_filter_le _ _

theorem confidence_lowered {config : StyleConfig Rat} {before after : Survey Rat}
    (hfull : 0 < config.fullCoverage) (h : t.AddsRejectedPair config before after a b) :
    (after.result t config).confidence ≤ (before.result t config).confidence ∧
      (0 < (before.result t config).confidence →
        (after.result t config).confidence < (before.result t config).confidence) := by
  obtain ⟨hclassified, hscope, hcompliant, hle⟩ := h.counts
  have hsize : after.graph.size = before.graph.size := by
    simpa [Graph.locations, Graph.size] using congrArg List.length h.locations
  rw [confidence_result, confidence_result, hclassified, hscope, hcompliant, hsize]
  exact confidence_succ hfull (div_nonneg (Nat.cast_nonneg _) (Nat.cast_nonneg _)) hle

end StyleTable.AddsRejectedPair

namespace StyleTable

/-- One more pair of components that an edge joins and the rule rejects is one more violation
    among the others, and in exact arithmetic it lowers a confidence that is not zero. -/
theorem rejected_pair_lowers_confidence (t : StyleTable) :
    (∀ {α : Type} [Scalar α] (config : StyleConfig α) (before after : Survey α)
      (a b : ComponentId), t.AddsRejectedPair config before after a b →
        (before.result t config).GainsViolation (after.result t config) a b) ∧
    ∀ (config : StyleConfig Rat) (before after : Survey Rat) (a b : ComponentId),
      0 < config.fullCoverage → t.AddsRejectedPair config before after a b →
        (after.result t config).confidence ≤ (before.result t config).confidence ∧
        (0 < (before.result t config).confidence →
          (after.result t config).confidence < (before.result t config).confidence) :=
  ⟨fun _ _ _ _ _ h => h.gainsViolation, fun _ _ _ _ _ hfull h => h.confidence_lowered hfull⟩

/-- Three layers, each of which depends on the one below it. -/
def stackedSurvey : Survey Rat where
  graph := (GraphBuild.ofSorted
    [Report.importer "db" [], Report.importer "service" ["db"],
      Report.importer "ui" ["service"]]).graph
  intents := []
  built := ⟨_, _, GraphBuild.ofRecords_of_ascending (by decide) (by decide)⟩

/-- The same layers, the lowest of which depends on the highest as well. -/
def upwardSurvey : Survey Rat where
  graph := (GraphBuild.ofSorted
    [Report.importer "db" ["ui"], Report.importer "service" ["db"],
      Report.importer "ui" ["service"]]).graph
  intents := []
  built := ⟨_, _, GraphBuild.ofRecords_of_ascending (by decide) (by decide)⟩

theorem addsRejectedPair_upwardSurvey :
    layered.AddsRejectedPair (.standard Rat) stackedSurvey upwardSurvey "db" "ui" := by
  have hbefore : stackedSurvey.graph.edges.map (fun e => (e.source, e.target)) =
      [("service", "db"), ("ui", "service")] := by decide +kernel
  have hafter : upwardSurvey.graph.edges.map (fun e => (e.source, e.target)) =
      [("db", "ui"), ("service", "db"), ("ui", "service")] := by decide +kernel
  exact {
    locations := by decide +kernel
    roles := by decide +kernel
    distinct := by decide
    fresh := by
      rw [Graph.joins_iff_mem_map, hbefore]
      decide
    joins := by
      intro x y _
      rw [Graph.joins_iff_mem_map, Graph.joins_iff_mem_map, hbefore, hafter, List.mem_cons,
        Prod.mk.injEq, or_comm]
    rejected := by
      have hdb : ("db", "db") ∈ stackedSurvey.graph.locations := by decide +kernel
      have hui : ("ui", "ui") ∈ stackedSurvey.graph.locations := by decide +kernel
      obtain ⟨c, hc, hcdb⟩ := List.mem_map.1 hdb
      obtain ⟨d, hd, hdui⟩ := List.mem_map.1 hui
      obtain ⟨hcid, hcpath⟩ := Prod.mk.inj hcdb
      obtain ⟨hdid, hdpath⟩ := Prod.mk.inj hdui
      refine ⟨c, hc, d, hd, .repository, .controller, hcid, hdid, ?_, ?_, ?_⟩
      · decide +kernel
      · decide +kernel
      · rw [hcpath, hdpath]
        decide +kernel }

theorem rejected_pair_lowers_confidence_upwardSurvey :
    let config := StyleConfig.standard Rat
    0 < config.fullCoverage ∧
    layered.AddsRejectedPair config stackedSurvey upwardSurvey "db" "ui" ∧
    (stackedSurvey.result layered config).GainsViolation (upwardSurvey.result layered config)
      "db" "ui" ∧
    (stackedSurvey.result layered config).confidence = 1 ∧
    (upwardSurvey.result layered config).confidence <
      (stackedSurvey.result layered config).confidence := by
  have hfull : 0 < (StyleConfig.standard Rat).fullCoverage := by decide +kernel
  have hadds := addsRejectedPair_upwardSurvey
  have hone : (stackedSurvey.result layered (.standard Rat)).confidence = 1 := by
    decide +kernel
  obtain ⟨hgains, hlowered⟩ := rejected_pair_lowers_confidence layered
  refine ⟨hfull, hadds, hgains _ _ _ _ _ hadds, hone, ?_⟩
  exact (hlowered _ _ _ _ _ hfull hadds).2 (hone ▸ zero_lt_one)

end StyleTable

end ArchAudit
