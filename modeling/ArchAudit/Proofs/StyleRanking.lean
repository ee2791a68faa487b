-- SUMMARY: In exact arithmetic, the styles that describe a system are the first of one ranking, and fewer under stricter settings.
import ArchAudit.Proofs.Advice
import ArchAudit.Proofs.Registrations
import ArchAudit.Proofs.StyleFindings
import Mathlib.Algebra.Order.Ring.Rat
import Mathlib.Tactic.Linarith

/-!
# The ranking of styles

Styles are ranked by confidence and, where that is equal, by their order. Read in exact
arithmetic, this is a total order, so the ranking of some results does not depend on how they
are arranged. The styles above a threshold and those within a margin of the best are both
closed upwards: with a style, every better one belongs to them. Choosing them from the ranking
therefore cuts it off somewhere, and a stricter threshold or margin cuts it off earlier.
-/

namespace ArchAudit

/-! ## Cutting off sorted lists -/

section Cutting

variable {β : Type} {R : β → β → Prop} {p q : β → Bool}

/-- What is chosen from a sorted list is cut off from it if whatever comes before a chosen
    element is chosen too. -/
theorem filter_prefix (hclosed : ∀ a b, R a b → p b → p a) {l : List β} (hl : l.Pairwise R) :
    l.filter p <+: l := by
  induction hl with
  | nil => exact List.prefix_rfl
  | @cons a l ha _ ih =>
    cases hp : p a with
    | true =>
      rw [List.filter_cons_of_pos hp]
      exact (List.prefix_cons_inj a).2 ih
    | false =>
      have hnone : (a :: l).filter p = [] := by
        rw [List.filter_eq_nil_iff, List.forall_mem_cons]
        refine ⟨by simp [hp], fun b hb hpb => ?_⟩
        rw [hclosed a b (ha b hb) hpb] at hp
        cases hp
      rw [hnone]
      exact List.nil_prefix

theorem filter_prefix_filter (hclosed : ∀ a b, R a b → p b → p a) (hpq : ∀ a, p a → q a)
    {l : List β} (hl : l.Pairwise R) : l.filter p <+: l.filter q := by
  have hfilter : (l.filter q).filter p = l.filter p := by
    rw [List.filter_filter]
    apply List.filter_congr
    intro a _
    cases hp : p a with
    | true => simp [hpq a hp]
    | false => rfl
  rw [← hfilter]
  exact filter_prefix hclosed (hl.filter q)

end Cutting

namespace Classification

/-! ## The order of ranks -/

/-- The style comes no later in the ranking: its confidence is greater, or equal and the style
    comes no later in the order of styles. -/
def Outranks (a b : StyleKind × Rat) : Prop :=
  b.2 < a.2 ∨ (b.2 = a.2 ∧ a.1.rank ≤ b.1.rank)

variable {a b c : StyleKind × Rat}

theorem totalCompare_eq (x y : Rat) :
    Scalar.totalCompare x y = if x < y then .lt else if y < x then .gt else .eq :=
  rfl

theorem precedes_iff : precedes a b = true ↔ Outranks a b := by
  rw [precedes, totalCompare_eq, Outranks]
  rcases lt_trichotomy b.2 a.2 with hlt | heq | hgt
  · simp [hlt]
  · simp [heq]
  · simp [hgt, hgt.not_gt, hgt.ne']

theorem Outranks.trans (hab : Outranks a b) (hbc : Outranks b c) : Outranks a c := by
  rcases hab with hab | ⟨hab, hrank⟩
  · rcases hbc with hbc | ⟨hbc, _⟩
    · exact .inl (hbc.trans hab)
    · exact .inl (hbc ▸ hab)
  · rcases hbc with hbc | ⟨hbc, hrank'⟩
    · exact .inl (hab ▸ hbc)
    · exact .inr ⟨hbc.trans hab, hrank.trans hrank'⟩

theorem outranks_total (a b : StyleKind × Rat) : Outranks a b ∨ Outranks b a := by
  rcases lt_trichotomy b.2 a.2 with hlt | heq | hgt
  · exact .inl (.inl hlt)
  · rcases Nat.le_total a.1.rank b.1.rank with hle | hle
    · exact .inl (.inr ⟨heq, hle⟩)
    · exact .inr (.inr ⟨heq.symm, hle⟩)
  · exact .inr (.inl hgt)

theorem Outranks.antisymm (hab : Outranks a b) (hba : Outranks b a) : a = b := by
  rcases hab with hab | ⟨heq, hle⟩
  · rcases hba with hba | ⟨heq, _⟩
    · exact absurd hba hab.not_gt
    · exact absurd heq hab.ne'
  · rcases hba with hba | ⟨_, hge⟩
    · exact absurd heq hba.ne'
    · exact Prod.ext (StyleKind.rank_injective (Nat.le_antisymm hle hge)) heq.symm

theorem Outranks.le (h : Outranks a b) : b.2 ≤ a.2 := by
  rcases h with h | h
  · exact h.le
  · exact h.1.le

/-! ## The ranking -/

variable {config : StyleConfig Rat} {results : List (StyleResult Rat)}

theorem mergeSort_precedes_laws :
    (∀ a b c : StyleKind × Rat, precedes a b → precedes b c → precedes a c) ∧
      ∀ a b : StyleKind × Rat, precedes a b || precedes b a := by
  constructor
  · intro a b c hab hbc
    exact precedes_iff.2 ((precedes_iff.1 hab).trans (precedes_iff.1 hbc))
  · intro a b
    rw [Bool.or_eq_true, precedes_iff, precedes_iff]
    exact outranks_total a b

theorem pairwise_qualifying (config : StyleConfig Rat) (results : List (StyleResult Rat)) :
    (qualifying config results).Pairwise Outranks :=
  (List.pairwise_mergeSort mergeSort_precedes_laws.1 mergeSort_precedes_laws.2 _).imp
    precedes_iff.1

theorem mem_qualifying {ranked : StyleKind × Rat} :
    ranked ∈ qualifying config results ↔
      ∃ r ∈ results, config.confidenceThreshold < r.confidence ∧
        (r.style, r.confidence) = ranked := by
  simp only [qualifying, List.mem_mergeSort, List.mem_map, List.mem_filter, decide_eq_true_iff,
    and_assoc]

/-- The ranking of results does not depend on how they are arranged. -/
theorem qualifying_perm {results' : List (StyleResult Rat)} (h : results.Perm results') :
    qualifying config results' = qualifying config results := by
  refine List.Perm.eq_of_pairwise (fun a b _ _ => Outranks.antisymm)
    (pairwise_qualifying config results') (pairwise_qualifying config results) ?_
  refine (List.mergeSort_perm _ _).trans (.trans ?_ (List.mergeSort_perm _ _).symm)
  exact (h.symm.filter _).map _

/-- A higher threshold chooses from the ranking. -/
theorem qualifying_of_le {threshold : Rat} (h : config.confidenceThreshold ≤ threshold) :
    qualifying { config with confidenceThreshold := threshold } results =
      (qualifying config results).filter fun ranked => threshold < ranked.2 := by
  rw [qualifying_eq, qualifying_eq,
    filter_mergeSort mergeSort_precedes_laws.1 mergeSort_precedes_laws.2, List.filter_filter]
  congr 1
  apply List.filter_congr
  intro ranked _
  rw [Bool.eq_iff_iff, Bool.and_eq_true, decide_eq_true_iff, decide_eq_true_iff]
  exact ⟨fun habove => ⟨habove, h.trans_lt habove⟩, And.left⟩

/-! ## Leaders -/

/-- Whether the style is behind the best confidence by less than the margin. -/
def isWithin (margin best : Rat) (ranked : StyleKind × Rat) : Bool :=
  best - ranked.2 < margin

/-- The best style of a ranking and those that follow within the margin. -/
def leaders (margin : Rat) : List (StyleKind × Rat) → List (StyleKind × Rat)
  | [] => []
  | best :: rest => best :: rest.filter (isWithin margin best.2)

variable {ranked : List (StyleKind × Rat)} {margin margin' best : Rat}

theorem isWithin_iff : isWithin margin best a = true ↔ best - a.2 < margin :=
  decide_eq_true_iff

/-- With a style, every better one is within the margin. -/
theorem isWithin_of_outranks (h : Outranks a b) (hb : isWithin margin best b = true) :
    isWithin margin best a = true := by
  rw [isWithin_iff] at hb ⊢
  have hle := h.le
  linarith

theorem leaders_prefix_of_margin_le (hmargin : margin ≤ margin')
    (hranked : ranked.Pairwise Outranks) : leaders margin ranked <+: leaders margin' ranked := by
  cases hranked with
  | nil => exact List.prefix_rfl
  | @cons best rest _ hrest =>
    rw [leaders, leaders, List.prefix_cons_inj]
    have hclosed (a b : StyleKind × Rat) (hab : Outranks a b) :
        isWithin margin best.2 b = true → isWithin margin best.2 a = true :=
      isWithin_of_outranks hab
    have hwider (a : StyleKind × Rat) (ha : isWithin margin best.2 a = true) :
        isWithin margin' best.2 a = true :=
      isWithin_iff.2 ((isWithin_iff.1 ha).trans_le hmargin)
    exact filter_prefix_filter hclosed hwider hrest

theorem leaders_prefix_of_threshold (threshold : Rat) (hranked : ranked.Pairwise Outranks) :
    leaders margin (ranked.filter fun r => threshold < r.2) <+: leaders margin ranked := by
  have hprefix : (ranked.filter fun r => threshold < r.2) <+: ranked := by
    refine filter_prefix (fun a b hab hb => ?_) hranked
    rw [decide_eq_true_iff] at hb ⊢
    exact hb.trans_le hab.le
  obtain ⟨dropped, hdropped⟩ := hprefix
  cases hfilter : ranked.filter fun r => threshold < r.2 with
  | nil => exact List.nil_prefix
  | cons best rest =>
    rw [hfilter] at hdropped
    rw [← hdropped, List.cons_append, leaders, leaders, List.prefix_cons_inj]
    exact (List.prefix_append rest dropped).filter _

theorem mem_leaders {best : StyleKind × Rat} {rest : List (StyleKind × Rat)} :
    a ∈ leaders margin (best :: rest) ↔ a = best ∨ (a ∈ rest ∧ best.2 - a.2 < margin) := by
  rw [leaders, List.mem_cons, List.mem_filter, isWithin_iff]

/-! ## Classifications -/

/-- The classification that names the styles. -/
def describedBy : List StyleKind → Classification
  | [] => .undetermined
  | [style] => .single style
  | style :: next :: styles => .hybrid (style :: next :: styles)

@[simp] theorem styles_describedBy (l : List StyleKind) : (describedBy l).styles = l := by
  fun_cases describedBy l <;> rfl

theorem two_le_of_describedBy {l styles : List StyleKind} (h : describedBy l = .hybrid styles) :
    2 ≤ styles.length := by
  have hstyles := congrArg Classification.styles h
  rw [styles_describedBy] at hstyles
  subst hstyles
  revert h
  fun_cases describedBy l with
  | case1 => exact nofun
  | case2 style => exact nofun
  | case3 style next styles =>
    intro _
    exact Nat.le_add_left 2 styles.length

/-- The leaders of the ranking describe the system. -/
theorem ofResults_eq (config : StyleConfig Rat) (results : List (StyleResult Rat)) :
    ofResults config results =
      describedBy ((leaders config.hybridMargin (qualifying config results)).map (·.1)) := by
  have hranked := pairwise_qualifying config results
  unfold ofResults
  cases hqualifying : qualifying config results with
  | nil => rfl
  | cons best rest =>
    cases rest with
    | nil => rfl
    | cons second rest =>
      rw [hqualifying] at hranked
      obtain ⟨hbest, hrest⟩ := List.pairwise_cons.1 hranked
      dsimp only
      split
      · next hclose =>
        have hsecond : isWithin config.hybridMargin best.2 second = true := isWithin_iff.2 hclose
        -- the margin is positive, so the best style is within it as well
        have hbest := isWithin_of_outranks (hbest second List.mem_cons_self) hsecond
        have hkept : (best :: second :: rest).filter (isWithin config.hybridMargin best.2) =
            best :: (second :: rest).filter (isWithin config.hybridMargin best.2) :=
          List.filter_cons_of_pos hbest
        change hybrid (((best :: second :: rest).filter
          (isWithin config.hybridMargin best.2)).map (·.1)) = _
        rw [hkept, leaders, List.filter_cons_of_pos hsecond]
        rfl
      · next hfar =>
        have hnone : (second :: rest).filter (isWithin config.hybridMargin best.2) = [] := by
          rw [List.filter_eq_nil_iff, List.forall_mem_cons, isWithin_iff]
          refine ⟨hfar, fun r hr hclose => hfar (isWithin_iff.1 ?_)⟩
          exact isWithin_of_outranks ((List.pairwise_cons.1 hrest).1 r hr) hclose
        rw [leaders, hnone]
        rfl

theorem styles_ofResults (config : StyleConfig Rat) (results : List (StyleResult Rat)) :
    (ofResults config results).styles =
      (leaders config.hybridMargin (qualifying config results)).map (·.1) := by
  rw [ofResults_eq, styles_describedBy]

theorem styles_ofResults_eq_nil_iff :
    (ofResults config results).styles = [] ↔
      ∀ r ∈ results, ¬ config.confidenceThreshold < r.confidence := by
  have hleaders : leaders config.hybridMargin (qualifying config results) = [] ↔
      qualifying config results = [] := by
    cases qualifying config results with
    | nil => exact Iff.rfl
    | cons best rest => simp [leaders]
  rw [styles_ofResults, List.map_eq_nil_iff, hleaders, List.eq_nil_iff_forall_not_mem]
  constructor
  · intro h r hr habove
    exact h _ (mem_qualifying.2 ⟨r, hr, habove, rfl⟩)
  · rintro h ranked hranked
    obtain ⟨r, hr, habove, _⟩ := mem_qualifying.1 hranked
    exact h r hr habove

/-- The best of the ranking outranks all results. -/
theorem outranks_of_qualifying_eq {best : StyleKind × Rat} {rest : List (StyleKind × Rat)}
    (h : qualifying config results = best :: rest) {r : StyleResult Rat} (hr : r ∈ results) :
    Outranks best (r.style, r.confidence) := by
  have hranked := pairwise_qualifying config results
  have hmem : best ∈ qualifying config results := by
    rw [h]
    exact List.mem_cons_self
  by_cases habove : config.confidenceThreshold < r.confidence
  · have hr' := mem_qualifying.2 ⟨r, hr, habove, rfl⟩
    rw [h] at hranked hr'
    rcases List.mem_cons.1 hr' with heq | hr'
    · rw [heq]
      exact .inr ⟨rfl, Nat.le_refl _⟩
    · exact (List.pairwise_cons.1 hranked).1 _ hr'
  · obtain ⟨s, _, hs, rfl⟩ := mem_qualifying.1 hmem
    exact .inl ((not_lt.1 habove).trans_lt hs)

/-- The styles named are those above the threshold that are within the margin of every result
    or outrank it. -/
theorem mem_styles_ofResults {style : StyleKind} :
    style ∈ (ofResults config results).styles ↔
      ∃ r ∈ results, r.style = style ∧ config.confidenceThreshold < r.confidence ∧
        ∀ s ∈ results, s.confidence - r.confidence < config.hybridMargin ∨
          Outranks (r.style, r.confidence) (s.style, s.confidence) := by
  rw [styles_ofResults, List.mem_map]
  cases hqualifying : qualifying config results with
  | nil =>
    constructor
    · rintro ⟨_, hnone, _⟩
      cases hnone
    · rintro ⟨r, hr, _, habove, _⟩
      have hmem := mem_qualifying.2 ⟨r, hr, habove, rfl⟩
      rw [hqualifying] at hmem
      cases hmem
  | cons best rest =>
    have hbest {r : StyleResult Rat} (hr : r ∈ results) := outranks_of_qualifying_eq hqualifying hr
    have hmem (a : StyleKind × Rat) : a = best ∨ a ∈ rest ↔
        ∃ r ∈ results, config.confidenceThreshold < r.confidence ∧
          (r.style, r.confidence) = a := by
      rw [← List.mem_cons, ← hqualifying, mem_qualifying]
    simp only [mem_leaders]
    constructor
    · rintro ⟨a, rfl | ⟨ha, hwithin⟩, rfl⟩
      · obtain ⟨r, hr, habove, rfl⟩ := (hmem a).1 (.inl rfl)
        exact ⟨r, hr, rfl, habove, fun s hs => .inr (hbest hs)⟩
      · obtain ⟨r, hr, habove, rfl⟩ := (hmem a).1 (.inr ha)
        refine ⟨r, hr, rfl, habove, fun s hs => .inl ?_⟩
        have hle := (hbest hs).le
        dsimp only at hle hwithin
        linarith
    · rintro ⟨r, hr, rfl, habove, hall⟩
      refine ⟨(r.style, r.confidence), ?_, rfl⟩
      rcases (hmem _).2 ⟨r, hr, habove, rfl⟩ with heq | hrest
      · exact .inl heq
      · obtain ⟨s, hs, _, rfl⟩ := (hmem best).1 (.inl rfl)
        rcases hall s hs with hwithin | houtranks
        · exact .inr ⟨hrest, hwithin⟩
        · exact .inl (houtranks.antisymm (hbest hr))

/-- Read in exact arithmetic, a classification does not depend on the order of the results, and
    a hybrid has at least two styles. A smaller margin or a higher threshold cuts the list of
    styles off earlier. The list is empty if and only if nothing is above the threshold, and
    otherwise starts with the style of greatest confidence, the first in the order of styles if
    there are several. It names the styles above the threshold that are within the margin. -/
theorem ofResults_cuts_ranking (config : StyleConfig Rat) (results : List (StyleResult Rat)) :
    (∀ results', results.Perm results' → ofResults config results' = ofResults config results) ∧
    (∀ styles, ofResults config results = .hybrid styles → 2 ≤ styles.length) ∧
    (∀ margin, config.hybridMargin ≤ margin →
      (ofResults config results).styles <+:
        (ofResults { config with hybridMargin := margin } results).styles) ∧
    (∀ threshold, config.confidenceThreshold ≤ threshold →
      (ofResults { config with confidenceThreshold := threshold } results).styles <+:
        (ofResults config results).styles) ∧
    ((ofResults config results).styles = [] ↔
      ∀ r ∈ results, ¬ config.confidenceThreshold < r.confidence) ∧
    (∀ first rest, (ofResults config results).styles = first :: rest →
      ∃ best ∈ results, best.style = first ∧ config.confidenceThreshold < best.confidence ∧
        ∀ r ∈ results, r.confidence < best.confidence ∨
          (r.confidence = best.confidence ∧ best.style.rank ≤ r.style.rank)) ∧
    (∀ style, style ∈ (ofResults config results).styles ↔
      ∃ r ∈ results, r.style = style ∧ config.confidenceThreshold < r.confidence ∧
        ∀ s ∈ results, s.confidence - r.confidence < config.hybridMargin ∨
          Outranks (r.style, r.confidence) (s.style, s.confidence)) := by
  have hranked := pairwise_qualifying config results
  refine ⟨?_, ?_, ?_, ?_, styles_ofResults_eq_nil_iff, ?_, fun style => mem_styles_ofResults⟩
  · intro results' hperm
    rw [ofResults_eq, qualifying_perm hperm, ofResults_eq]
  · intro styles hhybrid
    rw [ofResults_eq] at hhybrid
    exact two_le_of_describedBy hhybrid
  · intro margin hmargin
    rw [styles_ofResults, styles_ofResults]
    exact (leaders_prefix_of_margin_le hmargin hranked).map _
  · intro threshold hthreshold
    rw [styles_ofResults, styles_ofResults, qualifying_of_le hthreshold]
    exact (leaders_prefix_of_threshold threshold hranked).map _
  · intro first rest hstyles
    rw [styles_ofResults] at hstyles
    cases hqualifying : qualifying config results with
    | nil =>
      rw [hqualifying] at hstyles
      cases hstyles
    | cons best others =>
      rw [hqualifying] at hstyles
      obtain ⟨rfl, _⟩ := List.cons.inj hstyles
      have hmem : best ∈ qualifying config results := hqualifying ▸ List.mem_cons_self
      obtain ⟨r, hr, habove, rfl⟩ := mem_qualifying.1 hmem
      exact ⟨r, hr, rfl, habove, fun s hs => outranks_of_qualifying_eq hqualifying hs⟩

/-- Two styles close to each other and one far behind. -/
def closeResults : List (StyleResult Rat) :=
  [{ StyleResult.empty .layered with confidence := 0.55 },
   { StyleResult.empty .hexagonal with confidence := 0.5 },
   { StyleResult.empty .clean with confidence := 0.1 }]

theorem ofResults_cuts_ranking_closeResults :
    ofResults (.standard Rat) closeResults.reverse = .hybrid [.layered, .hexagonal] ∧
    2 ≤ [StyleKind.layered, .hexagonal].length ∧
    [StyleKind.layered, .hexagonal] <+:
      (ofResults { StyleConfig.standard Rat with hybridMargin := 0.5 } closeResults).styles ∧
    (ofResults { StyleConfig.standard Rat with confidenceThreshold := 0.52 } closeResults).styles
      <+: [StyleKind.layered, .hexagonal] := by
  have hqualifying : qualifying (.standard Rat) closeResults =
      [(.layered, 0.55), (.hexagonal, 0.5)] := by
    have hchosen : ((closeResults.map fun r => (r.style, r.confidence)).filter fun x =>
        (StyleConfig.standard Rat).confidenceThreshold < x.2) =
          [(.layered, 0.55), (.hexagonal, 0.5)] := by
      decide +kernel
    rw [qualifying_eq, hchosen]
    exact List.mergeSort_of_pairwise (by decide +kernel)
  have hhybrid : ofResults (.standard Rat) closeResults = .hybrid [.layered, .hexagonal] := by
    rw [ofResults_eq, hqualifying]
    decide +kernel
  obtain ⟨hperm, htwo, hmargin, hthreshold, _⟩ :=
    ofResults_cuts_ranking (.standard Rat) closeResults
  have hwider := hmargin 0.5 (by decide +kernel)
  have hhigher := hthreshold 0.52 (by decide +kernel)
  rw [hhybrid] at hwider hhigher
  refine ⟨?_, htwo _ hhybrid, hwider, hhigher⟩
  rw [hperm _ (List.reverse_perm closeResults).symm, hhybrid]

end Classification

end ArchAudit
