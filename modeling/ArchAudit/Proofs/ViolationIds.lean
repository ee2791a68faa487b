-- SUMMARY: Violations have distinct ids, and recommendations cite each of them once.
import ArchAudit.Proofs.Advice
import ArchAudit.Proofs.Findings
import ArchAudit.Proofs.StandardAnalysis
import ArchAudit.Proofs.StyleResults
import Mathlib.Data.List.Nodup
import Mathlib.Data.List.Perm.Basic
import Std.Data.String.ToNat

/-!
# Ids of violations

The id of a violation is a stem and a number. Its number has no dash, so the last dash
divides the two, and ids under different stems or of different numbers differ. The
violations of a report fall into blocks, each numbered under a stem of its own. The
recommendations divide them anew, by kind, and lose none.
-/

namespace ArchAudit

-- ---------------------------------------------------------------------------
-- Numbered names
-- ---------------------------------------------------------------------------

/-- The name with a stem and a place, which is counted from zero and written from one. -/
def numbered (stem : String) (place : Nat) : String :=
  stem ++ "-" ++ toString (place + 1)

/-- The last dash of a text divides it in one way. -/
theorem append_dash_inj {a b c d : List Char} (hb : '-' ∉ b) (hd : '-' ∉ d)
    (h : a ++ '-' :: b = c ++ '-' :: d) : a = c ∧ b = d := by
  rcases List.append_eq_append_iff.1 h with ⟨l, rfl, hl⟩ | ⟨l, rfl, hl⟩
  · cases l with
    | nil => simpa using hl
    | cons x l =>
      obtain ⟨rfl, rfl⟩ := List.cons.inj hl
      simp at hb
  · cases l with
    | nil => simpa [eq_comm] using hl
    | cons x l =>
      obtain ⟨rfl, rfl⟩ := List.cons.inj hl
      simp at hd

theorem dash_not_mem_toString (n : Nat) : '-' ∉ (toString n).toList := by
  intro hmem
  rw [Nat.toString_eq_repr, Nat.toList_repr] at hmem
  have hdigit := Nat.isDigit_of_mem_toDigits (by decide) (by decide) hmem
  revert hdigit
  decide

theorem numbered_inj {s t : String} {i j : Nat} (h : numbered s i = numbered t j) :
    s = t ∧ i = j := by
  have hchars := congrArg String.toList h
  simp only [numbered, String.toList_append, List.append_assoc] at hchars
  obtain ⟨hstem, hnumber⟩ :=
    append_dash_inj (dash_not_mem_toString _) (dash_not_mem_toString _) hchars
  refine ⟨String.toList_injective hstem, ?_⟩
  have hrepr : (i + 1).repr = (j + 1).repr := String.toList_injective hnumber
  exact Nat.succ.inj (Nat.repr_injective hrepr)

-- ---------------------------------------------------------------------------
-- Blocks
-- ---------------------------------------------------------------------------

section Blocks

variable {α : Type}

/-- The ids of the violations are the stem with the numbers from one on. -/
def NumberedUnder (stem : String) (l : List (Violation α)) : Prop :=
  l.map (·.id) = (List.range l.length).map (numbered stem)

theorem numberedUnder_mapIdx {β : Type} {stem : String} {f : Nat → β → Violation α}
    (h : ∀ i b, (f i b).id = numbered stem i) (l : List β) : NumberedUnder stem (l.mapIdx f) := by
  refine List.ext_getElem (by simp) ?_
  intro i _ _
  simp [h]

theorem NumberedUnder.nodup {stem : String} {l : List (Violation α)} (h : NumberedUnder stem l) :
    (l.map (·.id)).Nodup := by
  rw [h]
  exact List.nodup_range.map fun _ _ heq => (numbered_inj heq).2

theorem NumberedUnder.exists_place {stem id : String} {l : List (Violation α)}
    (h : NumberedUnder stem l) (hid : id ∈ l.map (·.id)) : ∃ i, id = numbered stem i := by
  rw [h] at hid
  obtain ⟨i, _, rfl⟩ := List.mem_map.1 hid
  exact ⟨i, rfl⟩

/-- Blocks under different stems have no id in common. -/
theorem nodup_ids_of_blocks {blocks : List (String × List (Violation α))}
    (hstems : (blocks.map (·.1)).Nodup) (h : ∀ b ∈ blocks, NumberedUnder b.1 b.2) :
    ((blocks.flatMap (·.2)).map (·.id)).Nodup := by
  rw [List.map_flatMap, List.nodup_flatMap]
  refine ⟨fun b hb => (h b hb).nodup, ?_⟩
  refine (List.pairwise_map.1 hstems).imp_of_mem ?_
  intro b c hb hc hne id hidb hidc
  obtain ⟨i, rfl⟩ := (h b hb).exists_place hidb
  obtain ⟨j, hj⟩ := (h c hc).exists_place hidc
  exact hne (numbered_inj hj).1

variable [Scalar α]

/-- The stem of a style's violations. -/
def layerStem (style : StyleKind) : String :=
  Named.name style ++ "-layer-violation"

theorem numberedUnder_violations (t : StyleTable) (judged : List (StyleTable.Judged α)) :
    NumberedUnder (layerStem t.style) (t.violations judged) := by
  refine numberedUnder_mapIdx ?_ _
  intro i j
  have hstem : Named.name t.style ++ "-layer-violation-" = layerStem t.style ++ "-" := by
    rw [layerStem, String.append_assoc]
    rfl
  change Named.name t.style ++ "-layer-violation-" ++ toString (i + 1) = _
  rw [hstem]
  rfl

end Blocks

-- ---------------------------------------------------------------------------
-- Groups
-- ---------------------------------------------------------------------------

/-- Elements put together by their keys are the same elements. -/
theorem perm_flatMap_filter {β κ : Type} [DecidableEq κ] {keys : List κ} {key : β → κ}
    {l : List β} (hkeys : keys.Nodup) (h : ∀ b ∈ l, key b ∈ keys) :
    (keys.flatMap fun k => l.filter (key · = k)).Perm l := by
  induction keys generalizing l with
  | nil =>
    cases l with
    | nil => exact .refl _
    | cons b l => cases h b List.mem_cons_self
  | cons k keys ih =>
    obtain ⟨hk, hkeys⟩ := List.nodup_cons.1 hkeys
    -- The other keys find their elements among those left over.
    have hothers : ∀ k' ∈ keys,
        l.filter (key · = k') = (l.filter (fun b => !decide (key b = k))).filter (key · = k') := by
      intro k' hk'
      rw [List.filter_filter]
      refine List.filter_congr ?_
      intro b _
      have hne : k' ≠ k := fun heq => hk (heq ▸ hk')
      by_cases hb : key b = k'
      · simp [hb, hne]
      · simp [hb]
    have hrest : (keys.flatMap fun k' => l.filter (key · = k')).Perm
        (l.filter (fun b => !decide (key b = k))) := by
      rw [List.flatMap_congr hothers]
      refine ih hkeys ?_
      intro b hb
      obtain ⟨hb, hne⟩ := List.mem_filter.1 hb
      refine (List.mem_cons.1 (h b hb)).resolve_left ?_
      simpa using hne
    rw [List.flatMap_cons]
    exact (hrest.append_left _).trans (List.filter_append_perm _ _)

namespace Recommendation

variable {α : Type} {violations : List (Violation α)}

theorem mem_allKinds (kind : ViolationKind) : kind ∈ (Named.all : List ViolationKind) := by
  cases kind <;> decide

/-- The recommendations for violations cite their ids, kind by kind. -/
theorem flatMap_ofViolations (violations : List (Violation α)) :
    (ofViolations violations).flatMap (·.relatedViolations) =
      ((Named.all : List ViolationKind).flatMap fun kind =>
        violations.filter (·.kind = kind)).map (·.id) := by
  unfold ofViolations
  rw [List.map_flatMap, List.filterMap_eq_flatMap_toList, List.flatMap_assoc]
  refine List.flatMap_congr ?_
  intro kind _
  cases hgroup : violations.filter (·.kind = kind) with
  | nil => rfl
  | cons v group => simp [ofGroup]

/-- All advice taken together cites the ids of the violations. -/
theorem relatedViolations_recommend [Scalar α] (threshold : α) (violations : List (Violation α))
    (intents : List (IntentResult α)) :
    ((recommend threshold violations intents).flatMap (·.relatedViolations)).Perm
      (violations.map (·.id)) := by
  have hintents : (intents.filterMap (ofIntent? threshold)).flatMap (·.relatedViolations) = [] := by
    rw [List.flatMap_eq_nil_iff]
    intro advice hadvice
    obtain ⟨r, _, hr⟩ := List.mem_filterMap.1 hadvice
    exact (ofIntent?_eq_some hr).1
  refine ((List.mergeSort_perm _ _).flatMap_right _).trans ?_
  rw [List.flatMap_append, hintents, List.append_nil, flatMap_ofViolations]
  exact (perm_flatMap_filter (by decide) fun v _ => mem_allKinds v.kind).map _

end Recommendation

-- ---------------------------------------------------------------------------
-- Reports
-- ---------------------------------------------------------------------------

theorem layerStem_injective : Function.Injective layerStem := by
  intro s t
  cases s <;> cases t <;> decide

/-- The kinds of violations that are numbered over all styles. -/
def structuralKinds : List ViolationKind :=
  [.cycle, .tightCoupling, .bidirectionalCoupling, .godComponent, .erosion]

theorem layerStem_not_mem (style : StyleKind) :
    layerStem style ∉ structuralKinds.map Named.name := by
  cases style <;> decide

namespace AntiPattern

variable {α : Type} [Scalar α] {config : AntiPatternConfig α} {g : Graph α}
  {styles : List (StyleResult α)} {classification : Classification}

theorem map_name_blocks :
    (blocks config g styles classification).map (fun b => Named.name b.1) =
      structuralKinds.map Named.name := rfl

theorem numberedUnder_of_mem_blocks {b : ViolationKind × List (Violation α)}
    (hb : b ∈ blocks config g styles classification) : NumberedUnder (Named.name b.1) b.2 := by
  simp only [blocks, List.mem_cons, List.not_mem_nil, or_false] at hb
  rcases hb with rfl | rfl | rfl | rfl | rfl <;> exact numberedUnder_mapIdx (fun _ _ => rfl) _

end AntiPattern

/-- Violations have distinct ids, and recommendations cite each of them once and
    nothing else. -/
structure Report.CitesEachOnce {α : Type} (r : Report α) : Prop where
  distinct : (r.violations.map (·.id)).Nodup
  once : ∀ v ∈ r.violations, (r.recommendations.flatMap (·.relatedViolations)).count v.id = 1
  oneRecommendation : ∀ v ∈ r.violations,
    r.recommendations.countP (v.id ∈ ·.relatedViolations) = 1
  nothingElse : ∀ advice ∈ r.recommendations, ∀ id ∈ advice.relatedViolations,
    ∃ v ∈ r.violations, v.id = id

/-- What is counted once in all lists together is in one list. -/
theorem countP_mem_eq_one {β : Type} {l : List β} {f : β → List String} {a : String}
    (h : (l.flatMap f).count a = 1) : l.countP (a ∈ f ·) = 1 := by
  induction l with
  | nil => cases h
  | cons b l ih =>
    rw [List.flatMap_cons, List.count_append] at h
    rw [List.countP_cons]
    by_cases hb : a ∈ f b
    · have hpos := List.count_pos_iff.2 hb
      have hnone : a ∉ l.flatMap f := List.count_eq_zero.1 (by omega)
      have hzero : l.countP (a ∈ f ·) = 0 := by
        rw [List.countP_eq_zero]
        intro c hc
        simpa using fun hmem => hnone (List.mem_flatMap.2 ⟨c, hc, hmem⟩)
      simp [hb, hzero]
    · rw [List.count_eq_zero.2 hb, Nat.zero_add] at h
      simp [hb, ih h]

namespace Report.Stages

variable {α : Type} [Scalar α] {config : Config α} {records : List ComponentRecord} {r : Report α}

/-- The violations of a report with the stems of their ids: the anti-patterns kind by kind,
    then the violations of each style that was found. -/
def blocks (config : Config α) (r : Report α) : List (String × List (Violation α)) :=
  (AntiPattern.blocks config.antiPatterns r.graph r.styles r.classification).map
      (fun b => (Named.name b.1, b.2))
    ++ (r.styles.filter (r.classification.styles.contains ·.style)).map fun s =>
      (layerStem s.style, s.violations)

theorem violations_eq_blocks (h : r.Stages config records) :
    r.violations = (blocks config r).flatMap (·.2) := by
  rw [h.violations, AntiPattern.detect_eq_blocks, blocks, List.flatMap_append, List.flatMap_map,
    List.flatMap_map]

theorem nodup_stems (h : r.Stages config records) : ((blocks config r).map (·.1)).Nodup := by
  have hmap : (blocks config r).map (·.1) = structuralKinds.map Named.name ++
      ((r.styles.filter (r.classification.styles.contains ·.style)).map (·.style)).map layerStem := by
    simp only [blocks, List.map_append, List.map_map, Function.comp_def,
      AntiPattern.map_name_blocks]
  rw [hmap, List.nodup_append]
  refine ⟨by decide, ?_, ?_⟩
  · exact (h.nodup_style.sublist (List.filter_sublist.map _)).map layerStem_injective
  · rintro stem hstem _ hlayer rfl
    obtain ⟨style, _, rfl⟩ := List.mem_map.1 hlayer
    exact layerStem_not_mem style hstem

theorem numberedUnder_of_mem_blocks (h : r.Stages config records)
    {b : String × List (Violation α)} (hb : b ∈ blocks config r) : NumberedUnder b.1 b.2 := by
  rcases List.mem_append.1 hb with hb | hb
  · obtain ⟨kindBlock, hkind, rfl⟩ := List.mem_map.1 hb
    exact AntiPattern.numberedUnder_of_mem_blocks hkind
  · obtain ⟨s, hs, rfl⟩ := List.mem_map.1 hb
    obtain ⟨t, rfl⟩ := h.exists_table (List.mem_of_mem_filter hs)
    rw [StyleTable.style_detect, StyleTable.violations_detect]
    exact numberedUnder_violations t _

theorem citesEachOnce (h : r.Stages config records) : r.CitesEachOnce := by
  have hdistinct : (r.violations.map (·.id)).Nodup := by
    rw [h.violations_eq_blocks]
    exact nodup_ids_of_blocks h.nodup_stems fun b hb => h.numberedUnder_of_mem_blocks hb
  have hperm : (r.recommendations.flatMap (·.relatedViolations)).Perm (r.violations.map (·.id)) := by
    rw [h.recommendations]
    exact Recommendation.relatedViolations_recommend _ _ _
  have honce : ∀ v ∈ r.violations,
      (r.recommendations.flatMap (·.relatedViolations)).count v.id = 1 := by
    intro v hv
    rw [hperm.count_eq]
    exact List.count_eq_one_of_mem hdistinct (List.mem_map.2 ⟨v, hv, rfl⟩)
  refine ⟨hdistinct, honce, fun v hv => countP_mem_eq_one (honce v hv), ?_⟩
  intro advice hadvice id hid
  exact List.mem_map.1 (hperm.mem_iff.1 (List.mem_flatMap.2 ⟨advice, hadvice, hid⟩))

end Report.Stages

namespace Pipeline

variable {α : Type} [Scalar α]

/-- With the built-in detectors of a validated configuration, accepted records get a
    report whose violations have distinct ids, each cited once. -/
theorem analyze_cites_each_once {config : Config α} (hconfig : config.validate = .ok ()) :
    ∃ p, standard config = .ok p ∧
      ∀ records, Accepted records →
        ∃ report, p.analyze records = .ok report ∧ report.CitesEachOnce :=
  standard_ensures hconfig fun _ _ hstages => hstages.citesEachOnce

theorem analyze_cites_each_once_erodedRecords :
    ∃ p, standard (.standard Float) = .ok p ∧ Accepted Report.erodedRecords ∧
      ∃ report, p.analyze Report.erodedRecords = .ok report ∧
        "bidirectional-coupling-1" ∈ report.violations.map (·.id) ∧ report.CitesEachOnce := by
  have hmutual : (AntiPattern.bidirectionalCoupling Report.erodedGraph).map (·.id) =
      ["bidirectional-coupling-1"] := by decide +kernel
  obtain ⟨p, hp, hensured⟩ := analyze_cites_each_once Config.validate_standard
  obtain ⟨report, hreport, hcites⟩ := hensured _ Report.accepted_erodedRecords
  refine ⟨p, hp, Report.accepted_erodedRecords, report, hreport, ?_, hcites⟩
  have hstages := stages_of_analyze hp hreport
  rw [← hstages.graph_eq_erodedGraph] at hmutual
  rw [hstages.violations, AntiPattern.detect]
  simp [hmutual]

end Pipeline

end ArchAudit
