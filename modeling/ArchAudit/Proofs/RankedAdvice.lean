-- SUMMARY: There is one piece of advice per finding, ranked without ties, whatever the order of the findings.
import ArchAudit.Proofs.Advice
import ArchAudit.Proofs.Names
import Mathlib.Data.List.Forall2
import Mathlib.Data.List.Perm.Basic

/-!
# Ranked advice

Each kind of violation and each intent has a category of its own, so no two pieces of
advice share one, and the order by urgency and category has no ties. What a piece of
advice says depends on which violations and what evidence there are, not on their order;
only the ids it cites are listed as they come.
-/

namespace ArchAudit

-- ---------------------------------------------------------------------------
-- Lists
-- ---------------------------------------------------------------------------

/-- Two lists in strict order correspond place by place if each element of one has a
    counterpart in the other and counterparts are in the same order. -/
theorem forall₂_of_pairwise {β : Type} {lt R : β → β → Prop} (hasymm : ∀ a b, lt a b → ¬ lt b a)
    (hR : ∀ a b a' b', R a b → R a' b' → (lt a a' ↔ lt b b')) {l l' : List β}
    (hl : l.Pairwise lt) (hl' : l'.Pairwise lt) (hleft : ∀ a ∈ l, ∃ b ∈ l', R a b)
    (hright : ∀ b ∈ l', ∃ a ∈ l, R a b) : List.Forall₂ R l l' := by
  have hirrefl : ∀ a, ¬ lt a a := fun a h => hasymm a a h h
  induction hl generalizing l' with
  | nil =>
    cases hl' with
    | nil => exact .nil
    | cons _ _ =>
      obtain ⟨a, ha, _⟩ := hright _ List.mem_cons_self
      cases ha
  | @cons a l hfirst _ ih =>
    cases hl' with
    | nil =>
      obtain ⟨b, hb, _⟩ := hleft a List.mem_cons_self
      cases hb
    | @cons b l' hfirst' htail' =>
      -- The first elements correspond: else each would come after the other's counterpart.
      have hab : R a b := by
        obtain ⟨b₁, hb₁, hab₁⟩ := hleft a List.mem_cons_self
        obtain ⟨a₁, ha₁, ha₁b⟩ := hright b List.mem_cons_self
        rcases List.mem_cons.1 hb₁ with rfl | hb₁
        · exact hab₁
        · rcases List.mem_cons.1 ha₁ with rfl | ha₁
          · exact ha₁b
          · have hback := (hR a b₁ a₁ b hab₁ ha₁b).1 (hfirst a₁ ha₁)
            exact absurd (hfirst' b₁ hb₁) (hasymm _ _ hback)
      refine .cons hab (ih htail' (fun a' ha' => ?_) fun b' hb' => ?_)
      · obtain ⟨b', hb', hab'⟩ := hleft a' (List.mem_cons_of_mem _ ha')
        rcases List.mem_cons.1 hb' with rfl | hb'
        · exact absurd ((hR _ _ _ _ hab hab').1 (hfirst a' ha')) (hirrefl _)
        · exact ⟨b', hb', hab'⟩
      · obtain ⟨a', ha', hab'⟩ := hright b' (List.mem_cons_of_mem _ hb')
        rcases List.mem_cons.1 ha' with rfl | ha'
        · exact absurd ((hR _ _ _ _ hab hab').2 (hfirst' b' hb')) (hirrefl _)
        · exact ⟨a', ha', hab'⟩

/-- What is chosen from a list keeps a feature, and features keep their order. -/
theorem map_filterMap_sublist {β γ δ : Type} {f : β → Option γ} {feature : γ → δ} {source : β → δ}
    (hf : ∀ b c, f b = some c → feature c = source b) (l : List β) :
    ((l.filterMap f).map feature).Sublist (l.map source) := by
  induction l with
  | nil => exact .slnil
  | cons b l ih =>
    rw [List.map_cons]
    cases hb : f b with
    | none =>
      rw [List.filterMap_cons_none hb]
      exact ih.cons _
    | some c =>
      rw [List.filterMap_cons_some hb, List.map_cons, hf b c hb]
      exact ih.cons_cons _

-- ---------------------------------------------------------------------------
-- Bands
-- ---------------------------------------------------------------------------

namespace SeverityBand

theorem eq_of_rank_eq {a b : SeverityBand} (h : a.rank = b.rank) : a = b := by
  cases a <;> cases b <;> first | rfl | cases h

theorem rank_le_rank_max (a b : SeverityBand) :
    a.rank ≤ (a.max b).rank ∧ b.rank ≤ (a.max b).rank := by
  rw [max]
  split <;> omega

theorem max_eq_or (a b : SeverityBand) : a.max b = a ∨ a.max b = b := by
  rw [max]
  split
  · exact .inr rfl
  · exact .inl rfl

theorem rank_le_foldl_max (bands : List SeverityBand) (a : SeverityBand) :
    ∀ b ∈ a :: bands, b.rank ≤ (bands.foldl max a).rank := by
  induction bands generalizing a with
  | nil => simp
  | cons c bands ih =>
    obtain ⟨ha, hc⟩ := rank_le_rank_max a c
    have hfold := ih (a.max c)
    have hstart := hfold _ List.mem_cons_self
    intro b hb
    rw [List.foldl_cons]
    rcases List.mem_cons.1 hb with rfl | hb
    · exact ha.trans hstart
    · rcases List.mem_cons.1 hb with rfl | hb
      · exact hc.trans hstart
      · exact hfold b (List.mem_cons_of_mem _ hb)

theorem foldl_max_mem (bands : List SeverityBand) (a : SeverityBand) :
    bands.foldl max a ∈ a :: bands := by
  induction bands generalizing a with
  | nil => simp
  | cons c bands ih =>
    rw [List.foldl_cons]
    rcases List.mem_cons.1 (ih (a.max c)) with h | h
    · rw [h]
      rcases max_eq_or a c with h | h <;> simp [h]
    · simp [h]

end SeverityBand

namespace RefactoringCategory

theorem ofIntent_injective : Function.Injective ofIntent := by
  intro kind kind' h
  cases kind <;> cases kind' <;> first | rfl | cases h

theorem eq_of_rank_eq {a b : RefactoringCategory} (h : a.rank = b.rank) : a = b := by
  cases a <;> cases b <;> first | rfl | cases h

end RefactoringCategory

namespace Recommendation

variable {α : Type}

-- ---------------------------------------------------------------------------
-- Advice on one finding
-- ---------------------------------------------------------------------------

/-- Advice on the violations of a kind: as urgent as the gravest of them, and about the
    components that take part in any. -/
structure OnKind (violations : List (Violation α)) (kind : ViolationKind) (r : Recommendation) :
    Prop where
  category : r.category = .ofViolation kind
  relatedViolations : r.relatedViolations = (violations.filter (·.kind = kind)).map (·.id)
  gravest : ∃ v ∈ violations, v.kind = kind ∧ r.priority = .ofBand v.band ∧
    ∀ w ∈ violations, w.kind = kind → w.band.rank ≤ v.band.rank
  ascending : r.affectedComponents.Pairwise (· < ·)
  affected : ∀ id, id ∈ r.affectedComponents ↔
    ∃ v ∈ violations, v.kind = kind ∧ id ∈ v.participants
  text : r.text =
    violationText kind (violations.countP (·.kind = kind)) (", ".intercalate r.affectedComponents)

/-- Advice on an intent whose measured score falls short: as urgent as the shortfall is
    great, and about the components that weakening evidence names. -/
structure OnIntent [Scalar α] (threshold : α) (intent : IntentResult α) (r : Recommendation) :
    Prop where
  category : r.category = .ofIntent intent.kind
  relatedViolations : r.relatedViolations = []
  short : ∃ score, intent.measuredScore = some score ∧ score < threshold ∧
    r.priority = .ofBand (.ofScore (1.0 - score / threshold)) ∧
    r.text = gapAdvice intent.kind ++ " (" ++ intent.kind.title ++ " scored "
      ++ Scalar.fixedPlaces score 2 ++ ")."
  ascending : r.affectedComponents.Pairwise (· < ·)
  affected : ∀ id, id ∈ r.affectedComponents ↔
    ∃ e ∈ intent.evidence, e.signal = .weakens ∧ id ∈ e.components

theorem pairwise_ascendingNames (l : List String) : (ascendingNames l).Pairwise (· < ·) :=
  (NameSet.ofList l).ascending

/-- Some violation of a group is as grave as the group, and none is graver. -/
theorem exists_highestBand {group : List (Violation α)} (h : group ≠ []) :
    ∃ v ∈ group, highestBand group = v.band ∧ ∀ w ∈ group, w.band.rank ≤ v.band.rank := by
  have hle : ∀ w ∈ group, w.band.rank ≤ (highestBand group).rank := fun w hw =>
    SeverityBand.rank_le_foldl_max _ _ _ (List.mem_cons_of_mem _ (List.mem_map_of_mem hw))
  rcases List.mem_cons.1 (SeverityBand.foldl_max_mem (group.map (·.band)) .minor) with hstart | hmem
  · -- Nothing exceeds the least band, from which the search starts.
    obtain ⟨v, hv⟩ := List.exists_mem_of_ne_nil group h
    have hhighest : highestBand group = .minor := hstart
    have hband : highestBand group = v.band := by
      apply SeverityBand.eq_of_rank_eq
      have hv := hle v hv
      rw [hhighest] at hv ⊢
      exact (Nat.le_zero.1 hv).symm
    exact ⟨v, hv, hband, fun w hw => hband ▸ hle w hw⟩
  · obtain ⟨v, hv, hband⟩ := List.mem_map.1 hmem
    have hband : highestBand group = v.band := hband.symm
    exact ⟨v, hv, hband, fun w hw => hband ▸ hle w hw⟩

theorem mem_filter_kind {violations : List (Violation α)} {kind : ViolationKind}
    {v : Violation α} :
    v ∈ violations.filter (·.kind = kind) ↔ v ∈ violations ∧ v.kind = kind := by
  simp

theorem onKind_ofGroup {violations : List (Violation α)} {kind : ViolationKind}
    (h : violations.filter (·.kind = kind) ≠ []) :
    (ofGroup kind (violations.filter (·.kind = kind))).OnKind violations kind where
  category := rfl
  relatedViolations := rfl
  gravest := by
    obtain ⟨v, hv, hband, hle⟩ := exists_highestBand h
    obtain ⟨hv, hkind⟩ := mem_filter_kind.1 hv
    refine ⟨v, hv, hkind, by rw [ofGroup, hband], fun w hw hwkind => ?_⟩
    exact hle w (mem_filter_kind.2 ⟨hw, hwkind⟩)
  ascending := pairwise_ascendingNames _
  affected := by
    intro id
    simp only [ofGroup, mem_ascendingNames, List.mem_flatMap, mem_filter_kind, and_assoc]
  text := by rw [List.countP_eq_length_filter]; rfl

/-- An intent whose measured score falls short has advice, and no other has. -/
theorem exists_ofIntent? [Scalar α] {threshold : α} {intent : IntentResult α} :
    (∃ r, ofIntent? threshold intent = some r) ↔
      ∃ score, intent.measuredScore = some score ∧ score < threshold := by
  unfold ofIntent?
  cases hscore : intent.measuredScore with
  | none => simp
  | some score => by_cases hshort : score < threshold <;> simp [hshort]

theorem onIntent_of_ofIntent? [Scalar α] {threshold : α} {intent : IntentResult α}
    {r : Recommendation} (h : ofIntent? threshold intent = some r) :
    r.OnIntent threshold intent := by
  obtain ⟨score, hscore, hshort⟩ := exists_ofIntent?.1 ⟨r, h⟩
  simp only [ofIntent?, hscore, if_pos hshort, Option.some.injEq] at h
  subst h
  refine ⟨rfl, rfl, ⟨score, hscore, hshort, rfl, rfl⟩, pairwise_ascendingNames _, fun id => ?_⟩
  simp only [weakened, mem_ascendingNames, List.mem_flatMap, List.mem_filter, decide_eq_true_iff,
    and_assoc]

-- ---------------------------------------------------------------------------
-- All advice
-- ---------------------------------------------------------------------------

/-- The advice is strictly before the other: more urgent, or as urgent and of an earlier
    category. -/
def Ahead (a b : Recommendation) : Prop :=
  b.priority.rank < a.priority.rank ∨
    a.priority.rank = b.priority.rank ∧ a.category.rank < b.category.rank

theorem Ahead.asymm (a b : Recommendation) (h : a.Ahead b) : ¬ b.Ahead a := by
  simp only [Ahead] at *
  omega

theorem ahead_of_precedes {a b : Recommendation} (h : a.precedes b)
    (hne : a.category ≠ b.category) : a.Ahead b := by
  have hrank : a.category.rank ≠ b.category.rank := fun hrank =>
    hne (RefactoringCategory.eq_of_rank_eq hrank)
  simp only [precedes, Bool.or_eq_true, Bool.and_eq_true, decide_eq_true_iff] at h
  simp only [Ahead]
  omega

theorem mem_ofViolations {violations : List (Violation α)} {r : Recommendation} :
    r ∈ ofViolations violations ↔ ∃ kind, violations.filter (·.kind = kind) ≠ [] ∧
      r = ofGroup kind (violations.filter (·.kind = kind)) := by
  have hall : ∀ kind : ViolationKind, kind ∈ (Named.all : List ViolationKind) := by
    intro kind
    cases kind <;> decide
  rw [ofViolations, List.mem_filterMap]
  refine exists_congr fun kind => ?_
  by_cases hempty : violations.filter (·.kind = kind) = []
  · simp [hempty]
  · simp [hempty, hall, eq_comm (a := r)]

/-- The categories of advice on violations are those of their kinds, in order. -/
theorem categories_ofViolations (violations : List (Violation α)) :
    ((ofViolations violations).map (·.category)).Sublist
      ((Named.all : List ViolationKind).map .ofViolation) := by
  apply map_filterMap_sublist
  intro kind r hr
  simp only [Option.ite_none_left_eq_some, Option.some.injEq] at hr
  rw [← hr.2]
  rfl

variable [Scalar α]

theorem mem_recommend {threshold : α} {violations : List (Violation α)}
    {intents : List (IntentResult α)} {r : Recommendation} :
    r ∈ recommend threshold violations intents ↔
      (∃ kind, violations.filter (·.kind = kind) ≠ [] ∧
        r = ofGroup kind (violations.filter (·.kind = kind))) ∨
      ∃ intent ∈ intents, ofIntent? threshold intent = some r := by
  rw [recommend, List.mem_mergeSort, List.mem_append, mem_ofViolations, List.mem_filterMap]

theorem nodup_categories_recommend (threshold : α) (violations : List (Violation α))
    {intents : List (IntentResult α)} (hkinds : (intents.map (·.kind)).Nodup) :
    ((recommend threshold violations intents).map (·.category)).Nodup := by
  have hperm : ((recommend threshold violations intents).map (·.category)).Perm
      ((ofViolations violations ++ intents.filterMap (ofIntent? threshold)).map (·.category)) :=
    (List.mergeSort_perm _ _).map _
  rw [hperm.nodup_iff, List.map_append, List.nodup_append]
  refine ⟨?_, ?_, ?_⟩
  · exact (categories_ofViolations violations).nodup (by decide)
  · have hsublist : ((intents.filterMap (ofIntent? threshold)).map (·.category)).Sublist
        (intents.map fun intent => .ofIntent intent.kind) :=
      map_filterMap_sublist (fun _ _ hr => (onIntent_of_ofIntent? hr).category) intents
    have hnodup := hkinds.map RefactoringCategory.ofIntent_injective
    rw [List.map_map] at hnodup
    exact hsublist.nodup hnodup
  · intro category hviolation category' hintent heq
    obtain ⟨r, hr, rfl⟩ := List.mem_map.1 hviolation
    obtain ⟨r', hr', rfl⟩ := List.mem_map.1 hintent
    obtain ⟨kind, _, rfl⟩ := mem_ofViolations.1 hr
    obtain ⟨intent, _, hr'⟩ := List.mem_filterMap.1 hr'
    rw [(onIntent_of_ofIntent? hr').category] at heq
    exact RefactoringCategory.ofIntent_ne_ofViolation intent.kind kind heq.symm

/-- No two pieces of advice tie. -/
theorem pairwise_recommend (threshold : α) (violations : List (Violation α))
    {intents : List (IntentResult α)} (hkinds : (intents.map (·.kind)).Nodup) :
    (recommend threshold violations intents).Pairwise Ahead := by
  have hsorted : (recommend threshold violations intents).Pairwise (precedes · ·) :=
    List.pairwise_mergeSort precedes_trans precedes_total _
  have hdistinct := List.pairwise_map.1 (nodup_categories_recommend threshold violations hkinds)
  exact hsorted.imp₂ (fun _ _ => ahead_of_precedes) hdistinct

-- ---------------------------------------------------------------------------
-- Order of the findings
-- ---------------------------------------------------------------------------

/-- The advice is the same but for the order in which it cites violations. -/
structure SameButOrder (r r' : Recommendation) : Prop where
  relatedViolations : r.relatedViolations.Perm r'.relatedViolations
  otherwise : r' = { r with relatedViolations := r'.relatedViolations }

namespace SameButOrder

variable {r r' : Recommendation}

theorem refl (r : Recommendation) : r.SameButOrder r :=
  ⟨.refl _, rfl⟩

theorem symm (h : r.SameButOrder r') : r'.SameButOrder r :=
  ⟨h.relatedViolations.symm, by rw [h.otherwise]⟩

theorem category (h : r.SameButOrder r') : r'.category = r.category := by
  rw [h.otherwise]

theorem priority (h : r.SameButOrder r') : r'.priority = r.priority := by
  rw [h.otherwise]

end SameButOrder

omit [Scalar α] in
theorem highestBand_perm {group group' : List (Violation α)} (h : group.Perm group') :
    highestBand group = highestBand group' := by
  have hcomm : RightCommutative SeverityBand.max :=
    ⟨fun a b c => by cases a <;> cases b <;> cases c <;> rfl⟩
  exact (h.map _).foldl_eq _

omit [Scalar α] in
theorem sameButOrder_ofGroup (kind : ViolationKind) {group group' : List (Violation α)}
    (h : group.Perm group') : (ofGroup kind group).SameButOrder (ofGroup kind group') := by
  have haffected : ascendingNames (group.flatMap (·.participants)) =
      ascendingNames (group'.flatMap (·.participants)) := by
    refine congrArg NameSet.toList (NameSet.ext_mem fun id => ?_)
    rw [NameSet.mem_ofList, NameSet.mem_ofList, (h.flatMap_right _).mem_iff]
  refine ⟨h.map _, ?_⟩
  simp only [ofGroup, haffected, highestBand_perm h, h.length_eq]

/-- Whatever the order of the findings, each piece of advice is given. -/
theorem exists_sameButOrder {threshold : α} {violations violations' : List (Violation α)}
    {intents intents' : List (IntentResult α)} (hviolations : violations.Perm violations')
    (hintents : intents.Perm intents') {r : Recommendation}
    (hr : r ∈ recommend threshold violations intents) :
    ∃ r' ∈ recommend threshold violations' intents', r.SameButOrder r' := by
  rcases mem_recommend.1 hr with ⟨kind, hne, rfl⟩ | ⟨intent, hintent, hr⟩
  · have hgroup := hviolations.filter (·.kind = kind)
    refine ⟨_, mem_recommend.2 (.inl ⟨kind, ?_, rfl⟩), sameButOrder_ofGroup kind hgroup⟩
    intro hempty
    exact hne (List.Perm.eq_nil (hempty ▸ hgroup))
  · exact ⟨r, mem_recommend.2 (.inr ⟨intent, hintents.mem_iff.1 hintent, hr⟩), .refl r⟩

-- ---------------------------------------------------------------------------
-- One piece of advice per finding
-- ---------------------------------------------------------------------------

/-- The advice has one piece for each kind of violation that occurs and one for each
    intent that falls short, of distinct categories and ranked without ties. -/
structure OnePerFinding (threshold : α) (violations : List (Violation α))
    (intents : List (IntentResult α)) (advice : List Recommendation) : Prop where
  distinct : (advice.map (·.category)).Nodup
  ranked : advice.Pairwise Ahead
  ofKind : ∀ kind, (∃ v ∈ violations, v.kind = kind) →
    ∃! r, r ∈ advice ∧ r.OnKind violations kind
  ofIntent : ∀ intent ∈ intents,
    (∃ score, intent.measuredScore = some score ∧ score < threshold) →
      ∃! r, r ∈ advice ∧ r.OnIntent threshold intent
  onlyThese : ∀ r ∈ advice,
    (∃ kind, r.OnKind violations kind) ∨ ∃ intent ∈ intents, r.OnIntent threshold intent

theorem onePerFinding_recommend (threshold : α) (violations : List (Violation α))
    {intents : List (IntentResult α)} (hkinds : (intents.map (·.kind)).Nodup) :
    OnePerFinding threshold violations intents (recommend threshold violations intents) where
  distinct := nodup_categories_recommend threshold violations hkinds
  ranked := pairwise_recommend threshold violations hkinds
  ofKind := by
    rintro kind ⟨v, hv, hkind⟩
    have hne : violations.filter (·.kind = kind) ≠ [] :=
      List.ne_nil_of_mem (mem_filter_kind.2 ⟨hv, hkind⟩)
    refine ⟨_, ⟨mem_recommend.2 (.inl ⟨kind, hne, rfl⟩), onKind_ofGroup hne⟩, ?_⟩
    rintro r ⟨hr, hon⟩
    exact List.inj_on_of_nodup_map (nodup_categories_recommend threshold violations hkinds) hr
      (mem_recommend.2 (.inl ⟨kind, hne, rfl⟩)) hon.category
  ofIntent := by
    intro intent hintent hshort
    obtain ⟨r, hr⟩ := exists_ofIntent?.2 hshort
    have hmem : r ∈ recommend threshold violations intents :=
      mem_recommend.2 (.inr ⟨intent, hintent, hr⟩)
    have hon := onIntent_of_ofIntent? hr
    refine ⟨r, ⟨hmem, hon⟩, ?_⟩
    rintro r' ⟨hr', hon'⟩
    exact List.inj_on_of_nodup_map (nodup_categories_recommend threshold violations hkinds) hr'
      hmem (hon'.category.trans hon.category.symm)
  onlyThese := by
    intro r hr
    rcases mem_recommend.1 hr with ⟨kind, hne, rfl⟩ | ⟨intent, hintent, hr⟩
    · exact .inl ⟨kind, onKind_ofGroup hne⟩
    · exact .inr ⟨intent, hintent, onIntent_of_ofIntent? hr⟩

/-- If the intents are of distinct kinds, there is one piece of advice per finding, ranked
    without ties, and the order of the findings shows in nothing but the order in which
    violations are cited. -/
theorem recommend_ranks_findings (threshold : α) (violations : List (Violation α))
    {intents : List (IntentResult α)} (hkinds : (intents.map (·.kind)).Nodup) :
    OnePerFinding threshold violations intents (recommend threshold violations intents) ∧
    ∀ violations' intents', violations.Perm violations' → intents.Perm intents' →
      List.Forall₂ SameButOrder (recommend threshold violations intents)
        (recommend threshold violations' intents') := by
  refine ⟨onePerFinding_recommend threshold violations hkinds, ?_⟩
  intro violations' intents' hviolations hintents
  have hkinds' : (intents'.map (·.kind)).Nodup := (hintents.map _).nodup_iff.1 hkinds
  refine forall₂_of_pairwise Ahead.asymm ?_ (pairwise_recommend threshold violations hkinds)
    (pairwise_recommend threshold violations' hkinds')
    (fun r hr => exists_sameButOrder hviolations hintents hr) fun r' hr' => ?_
  · intro a b a' b' hab hab'
    rw [Ahead, Ahead, hab.category, hab.priority, hab'.category, hab'.priority]
  · obtain ⟨r, hr, hsame⟩ := exists_sameButOrder hviolations.symm hintents.symm hr'
    exact ⟨r, hr, hsame.symm⟩

/-- Two cycles that share a component, of which the second is the graver, and a god
    component between them. -/
def mixedViolations : List (Violation Float) :=
  [.make "cycle-1" .cycle 0.4 ["b", "a"] "" none,
   .make "god-component-1" .godComponent 0.35 ["g"] "" none,
   .make "cycle-2" .cycle 0.7 ["c", "b"] "" none]

/-- An intent of which only a part was measured, one that falls short, and one of which
    nothing was measured. -/
def mixedIntents : List (IntentResult Float) :=
  let weakening : Evidence := ⟨["y", "x"], "", .weakens⟩
  [⟨.informationHiding, 0.15, [weakening], true, .ofList [(IntentResult.measuredMetric, 0.0)]⟩,
   ⟨.dependencyInversion, 0.1, [weakening, weakening], false, .empty⟩,
   .insufficient .separationOfConcerns]

theorem recommend_ranks_findings_mixedFindings :
    (mixedIntents.map (·.kind)).Nodup ∧
    OnePerFinding 0.5 mixedViolations mixedIntents (recommend 0.5 mixedViolations mixedIntents) ∧
    (∃ r ∈ recommend 0.5 mixedViolations mixedIntents,
      r.OnKind mixedViolations .cycle ∧ r.priority = .high) ∧
    (∃ r ∈ recommend 0.5 mixedViolations mixedIntents, r.category = .encapsulate) ∧
    List.Forall₂ SameButOrder (recommend 0.5 mixedViolations mixedIntents)
      (recommend 0.5 mixedViolations.reverse mixedIntents.reverse) := by
  have hkinds : (mixedIntents.map (·.kind)).Nodup := by decide
  obtain ⟨hone, hperm⟩ := recommend_ranks_findings 0.5 mixedViolations hkinds
  refine ⟨hkinds, hone, ?_, ?_, hperm _ _ (List.reverse_perm _).symm (List.reverse_perm _).symm⟩
  · have hcycles : ∃ v ∈ mixedViolations, v.kind = .cycle ∧ v.band = .severe := by decide +kernel
    obtain ⟨v, hv, hkind, hband⟩ := hcycles
    obtain ⟨r, ⟨hr, hon⟩, _⟩ := hone.ofKind .cycle ⟨v, hv, hkind⟩
    obtain ⟨w, _, _, hpriority, hle⟩ := hon.gravest
    have hsevere := hband ▸ hle v hv hkind
    have hgravest : w.band = .severe := by
      cases hw : w.band with
      | severe => rfl
      | minor | moderate =>
        rw [hw] at hsevere
        exact absurd hsevere (by decide)
    exact ⟨r, hr, hon, by rw [hpriority, hgravest]; rfl⟩
  · have hshort : ∃ intent ∈ mixedIntents, intent.kind = .informationHiding ∧
        intent.measuredScore = some 0.0 ∧ (0.0 : Float) < 0.5 := by
      decide +kernel
    obtain ⟨intent, hintent, hkind, hscore, hlt⟩ := hshort
    obtain ⟨r, ⟨hr, hon⟩, _⟩ := hone.ofIntent intent hintent ⟨0.0, hscore, hlt⟩
    exact ⟨r, hr, by rw [hon.category, hkind]; rfl⟩

end Recommendation

end ArchAudit
