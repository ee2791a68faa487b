-- SUMMARY: The role of a component is that of the first rule with the best score.
import ArchAudit.Proofs.Binary64Quotients
import ArchAudit.Proofs.Names
import ArchAudit.Role.Basic

/-!
# Choice of roles

The rules are tried in order, and the best so far is replaced only by a better one. Scores
are capped, so they are never undefined and any two of them can be compared; the best so far
is then the first of the best. Names and paths enter a score only by the tokens in them.
-/

namespace ArchAudit

-- ---------------------------------------------------------------------------
-- Scores
-- ---------------------------------------------------------------------------

namespace RoleRule

variable {c : Component Float} {signals : RoleSignals}

/-- The score of the rule for a component. -/
def scoreOf (c : Component Float) (signals : RoleSignals) (rule : RoleRule) : Float :=
  rule.score (.ofComponent c) c signals

theorem zero_le_bonus (h : StructuralHint) (c : Component Float) (signals : RoleSignals) :
    0.0 ≤ h.bonus c signals := by
  rw [StructuralHint.bonus]
  split
  · cases h <;> decide
  · decide

theorem zero_le_keywordScore (rule : RoleRule) (tokens : ComponentTokens) :
    0.0 ≤ (rule.keywordScore tokens : Float) := by
  rw [keywordScore]
  split
  · decide
  · split <;> decide

/-- A score lies between zero and one, whatever the hints add up to. -/
theorem scoreOf_mem_unit (c : Component Float) (signals : RoleSignals) (rule : RoleRule) :
    0.0 ≤ rule.scoreOf c signals ∧ rule.scoreOf c signals ≤ 1.0 := by
  have hhints : 0.0 ≤ Scalar.sum (rule.hints.map fun h => h.bonus c signals) := by
    refine Binary64.zero_le_foldl_add (by decide) fun x hx => ?_
    obtain ⟨h, _, rfl⟩ := List.mem_map.1 hx
    exact zero_le_bonus h c signals
  have hsum := Binary64.zero_le_add (rule.zero_le_keywordScore (.ofComponent c)) hhints
  rw [scoreOf, score, Scalar.least]
  split
  · exact ⟨hsum, by assumption⟩
  · rw [if_pos (by decide)]
    exact ⟨by decide, by decide⟩

/-- What scores are compared by. -/
def extentOf (c : Component Float) (signals : RoleSignals) (rule : RoleRule) : WithTop ℚ :=
  Binary64.extent (rule.scoreOf c signals)

theorem scoreOf_lt_iff {a b : RoleRule} : a.scoreOf c signals < b.scoreOf c signals ↔
    a.extentOf c signals < b.extentOf c signals :=
  Binary64.lt_iff_extent_lt (scoreOf_mem_unit c signals a).1 (scoreOf_mem_unit c signals b).1

theorem scoreOf_le_iff {a b : RoleRule} : a.scoreOf c signals ≤ b.scoreOf c signals ↔
    a.extentOf c signals ≤ b.extentOf c signals :=
  Binary64.le_iff_extent_le_of_nonneg (scoreOf_mem_unit c signals a).1
    (scoreOf_mem_unit c signals b).1

theorem scoreOf_lt_min_iff {rule : RoleRule} : rule.scoreOf c signals < minRoleScore ↔
    rule.extentOf c signals < Binary64.extent minRoleScore :=
  Binary64.lt_iff_extent_lt (scoreOf_mem_unit c signals rule).1 (by decide)

theorem min_le_scoreOf_iff {rule : RoleRule} : minRoleScore ≤ rule.scoreOf c signals ↔
    Binary64.extent minRoleScore ≤ rule.extentOf c signals :=
  Binary64.le_iff_extent_le_of_nonneg (by decide) (scoreOf_mem_unit c signals rule).1

-- ---------------------------------------------------------------------------
-- The first of the best
-- ---------------------------------------------------------------------------

/-- The rule attains the greatest score of all rules, and no rule before it does. -/
def FirstBest (c : Component Float) (signals : RoleSignals) (rules : List RoleRule)
    (rule : RoleRule) : Prop :=
  ∃ before after, rules = before ++ rule :: after ∧
    (∀ r ∈ before, r.scoreOf c signals < rule.scoreOf c signals) ∧
    ∀ r ∈ after, r.scoreOf c signals ≤ rule.scoreOf c signals

namespace FirstBest

variable {rules before after : List RoleRule} {best rule : RoleRule}

theorem extentOf_le (h : FirstBest c signals rules best) {r : RoleRule} (hr : r ∈ rules) :
    r.extentOf c signals ≤ best.extentOf c signals := by
  obtain ⟨before, after, rfl, hbefore, hafter⟩ := h
  rcases List.mem_append.1 hr with hr | hr
  · exact (scoreOf_lt_iff.1 (hbefore r hr)).le
  · rcases List.mem_cons.1 hr with rfl | hr
    · exact le_rfl
    · exact scoreOf_le_iff.1 (hafter r hr)

/-- A rule at the end that is no better changes nothing. -/
theorem concat (h : FirstBest c signals rules best)
    (hle : rule.extentOf c signals ≤ best.extentOf c signals) :
    FirstBest c signals (rules ++ [rule]) best := by
  obtain ⟨before, after, rfl, hbefore, hafter⟩ := h
  refine ⟨before, after ++ [rule], by simp, hbefore, fun r hr => ?_⟩
  rcases List.mem_append.1 hr with hr | hr
  · exact hafter r hr
  · rw [List.mem_singleton.1 hr]
    exact scoreOf_le_iff.2 hle

/-- A rule at the end that is better than all others is the best. -/
theorem concat_self (h : ∀ r ∈ rules, r.extentOf c signals < rule.extentOf c signals) :
    FirstBest c signals (rules ++ [rule]) rule :=
  ⟨rules, [], rfl, fun r hr => scoreOf_lt_iff.2 (h r hr), by simp⟩

/-- A worse rule changes nothing, wherever it stands. -/
theorem insert (h : FirstBest c signals (before ++ after) best)
    (hlt : rule.scoreOf c signals < best.scoreOf c signals) :
    FirstBest c signals (before ++ rule :: after) best := by
  have hle := scoreOf_le_iff.2 (scoreOf_lt_iff.1 hlt).le
  obtain ⟨front, back, hsplit, hfront, hback⟩ := h
  -- The rule stands before the best one, or after it.
  rcases List.append_eq_append_iff.1 hsplit with ⟨middle, rfl, rfl⟩ | ⟨middle, rfl, hmiddle⟩
  · refine ⟨before ++ rule :: middle, back, by simp, fun r hr => ?_, hback⟩
    rcases List.mem_append.1 hr with hr | hr
    · exact hfront r (List.mem_append_left _ hr)
    · rcases List.mem_cons.1 hr with rfl | hr
      · exact hlt
      · exact hfront r (List.mem_append_right _ hr)
  · cases middle with
    | nil =>
      obtain rfl : best :: back = after := hmiddle
      refine ⟨front ++ [rule], back, by simp, fun r hr => ?_, hback⟩
      rcases List.mem_append.1 hr with hr | hr
      · exact hfront r hr
      · exact List.mem_singleton.1 hr ▸ hlt
    | cons first middle =>
      obtain ⟨rfl, rfl⟩ := List.cons.inj hmiddle
      refine ⟨front, middle ++ rule :: after, by simp, hfront, fun r hr => ?_⟩
      rcases List.mem_append.1 hr with hr | hr
      · exact hback r (List.mem_append_left _ hr)
      · rcases List.mem_cons.1 hr with rfl | hr
        · exact hle
        · exact hback r (List.mem_append_right _ hr)

theorem unique (h : FirstBest c signals rules best) (h' : FirstBest c signals rules rule) :
    best = rule := by
  have hle := h.extentOf_le (r := rule)
  have hle' := h'.extentOf_le (r := best)
  obtain ⟨front, back, rfl, hfront, -⟩ := h
  obtain ⟨front', back', hsplit, hfront', -⟩ := h'
  have hnot : rule ∉ front := fun hmem =>
    absurd (scoreOf_lt_iff.1 (hfront rule hmem)) (not_lt.2 (hle' (by simp)))
  have hnot' : best ∉ front' := fun hmem =>
    absurd (scoreOf_lt_iff.1 (hfront' best hmem)) (not_lt.2 (hle (by simp [hsplit])))
  rcases List.append_eq_append_iff.1 hsplit with ⟨middle, rfl, hmiddle⟩ | ⟨middle, rfl, hmiddle⟩
  · cases middle with
    | nil => exact (List.cons.inj hmiddle).1
    | cons first middle =>
      obtain ⟨rfl, _⟩ := List.cons.inj hmiddle
      exact absurd (by simp) hnot'
  · cases middle with
    | nil => exact (List.cons.inj hmiddle).1.symm
    | cons first middle =>
      obtain ⟨rfl, _⟩ := List.cons.inj hmiddle
      exact absurd (by simp) hnot

end FirstBest

end RoleRule

-- ---------------------------------------------------------------------------
-- The choice
-- ---------------------------------------------------------------------------

open RoleRule

/-- The role and score of the first of the best rules, provided the score is high enough,
    and nothing if no score is. -/
def IsChoice (c : Component Float) (signals : RoleSignals) (rules : List RoleRule) :
    Option (Role × Float) → Prop
  | none => ∀ rule ∈ rules, rule.scoreOf c signals < minRoleScore
  | some (role, score) => ∃ rule, FirstBest c signals rules rule ∧
      minRoleScore ≤ rule.scoreOf c signals ∧ rule.role = role ∧ rule.scoreOf c signals = score

section Choice

variable {c : Component Float} {signals : RoleSignals} {rules : List RoleRule}
  {answer : Option (Role × Float)}

theorem betterRole_of_lt_min (best : Option (Role × Float)) {rule : RoleRule}
    (h : rule.scoreOf c signals < minRoleScore) :
    betterRole best (rule.role, rule.scoreOf c signals) = best :=
  if_pos h

/-- Taking up one more rule keeps the choice that of the first of the best. -/
theorem IsChoice.betterRole (h : IsChoice c signals rules answer) (rule : RoleRule) :
    IsChoice c signals (rules ++ [rule])
      (betterRole answer (rule.role, rule.scoreOf c signals)) := by
  by_cases hlow : rule.scoreOf c signals < minRoleScore
  · rw [betterRole_of_lt_min _ hlow]
    rw [scoreOf_lt_min_iff] at hlow
    match answer, h with
    | none, h =>
      intro r hr
      rcases List.mem_append.1 hr with hr | hr
      · exact h r hr
      · rw [List.mem_singleton.1 hr, scoreOf_lt_min_iff]
        exact hlow
    | some (role, score), ⟨best, hbest, hmin, hchoice⟩ =>
      have hle := hlow.le.trans (min_le_scoreOf_iff.1 hmin)
      exact ⟨best, hbest.concat hle, hmin, hchoice⟩
  · have hhigh : minRoleScore ≤ rule.scoreOf c signals := by
      rw [scoreOf_lt_min_iff, not_lt] at hlow
      exact min_le_scoreOf_iff.2 hlow
    match answer, h with
    | none, h =>
      rw [ArchAudit.betterRole, if_neg hlow]
      refine ⟨rule, .concat_self fun r hr => ?_, hhigh, rfl, rfl⟩
      exact (scoreOf_lt_min_iff.1 (h r hr)).trans_le (min_le_scoreOf_iff.1 hhigh)
    | some (role, score), ⟨best, hbest, hmin, hrole, hscore⟩ =>
      rw [ArchAudit.betterRole, if_neg hlow]
      dsimp only
      split
      · next hlt =>
        rw [← hscore, scoreOf_lt_iff] at hlt
        exact ⟨rule, .concat_self fun r hr => (hbest.extentOf_le hr).trans_lt hlt, hhigh, rfl, rfl⟩
      · next hnot =>
        rw [← hscore, scoreOf_lt_iff, not_lt] at hnot
        exact ⟨best, hbest.concat hnot, hmin, hrole, hscore⟩

theorem classifyRole_concat (rules : List RoleRule) (rule : RoleRule) :
    classifyRole (rules ++ [rule]) c signals =
      betterRole (classifyRole rules c signals) (rule.role, rule.scoreOf c signals) := by
  rw [classifyRole, List.map_append, List.map_singleton, List.foldl_concat]
  rfl

theorem isChoice_classifyRole (rules : List RoleRule) :
    IsChoice c signals rules (classifyRole rules c signals) := by
  induction rules using List.reverseRecOn with
  | nil =>
    intro rule hrule
    cases hrule
  | append_singleton rules rule ih =>
    rw [classifyRole_concat]
    exact ih.betterRole rule

theorem IsChoice.unique {answer' : Option (Role × Float)} (h : IsChoice c signals rules answer)
    (h' : IsChoice c signals rules answer') : answer = answer' := by
  have habsurd : ∀ {role score}, IsChoice c signals rules none →
      ¬ IsChoice c signals rules (some (role, score)) := by
    rintro role score hnone ⟨rule, ⟨before, after, rfl, _⟩, hmin, _⟩
    have hlow := scoreOf_lt_min_iff.1 (hnone rule (by simp))
    exact absurd hlow (not_lt.2 (min_le_scoreOf_iff.1 hmin))
  match answer, answer', h, h' with
  | none, none, _, _ => rfl
  | none, some _, h, h' => exact absurd h' (habsurd h)
  | some _, none, h, h' => exact absurd h (habsurd h')
  | some _, some _, ⟨rule, hbest, _, hrole, hscore⟩, ⟨rule', hbest', _, hrole', hscore'⟩ =>
    obtain rfl := hbest.unique hbest'
    exact congrArg some (Prod.ext (hrole.symm.trans hrole') (hscore.symm.trans hscore'))

theorem classifyRole_eq_iff : classifyRole rules c signals = answer ↔
    IsChoice c signals rules answer :=
  ⟨fun h => h ▸ isChoice_classifyRole rules, (isChoice_classifyRole rules).unique⟩

end Choice

-- ---------------------------------------------------------------------------
-- Tokens
-- ---------------------------------------------------------------------------

section Tokens

variable {c c' : Component Float}

/-- The parts of a path that are not empty. -/
def pathParts (path : String) : List String :=
  (Text.split (· = '/') path).filter (!·.isEmpty)

/-- The token occurs in the name of the component or in the stem of its file. -/
def Component.HasNameToken (c : Component Float) (token : String) : Prop :=
  token ∈ Tokens.tokenize c.name ∨
    ∃ file, (pathParts c.filePath).getLast? = some file ∧ token ∈ Tokens.tokenize (fileStem file)

/-- The token occurs in a directory of the component. -/
def Component.HasDirectoryToken (c : Component Float) (token : String) : Prop :=
  ∃ directory ∈ (pathParts c.filePath).dropLast, token ∈ Tokens.tokenize directory

theorem mem_name_ofComponent {token : String} :
    token ∈ (ComponentTokens.ofComponent c).name.toList ↔ c.HasNameToken token := by
  rw [ComponentTokens.ofComponent, NameSet.mem_ofList, List.mem_append, Component.HasNameToken,
    pathParts]
  refine or_congr_right ?_
  cases ((Text.split (· = '/') c.filePath).filter (!·.isEmpty)).getLast? <;> simp

theorem mem_directories_ofComponent {token : String} :
    token ∈ (ComponentTokens.ofComponent c).directories.toList ↔ c.HasDirectoryToken token := by
  rw [ComponentTokens.ofComponent, NameSet.mem_ofList, List.mem_flatMap,
    Component.HasDirectoryToken, pathParts]

theorem ofComponent_congr (hname : ∀ token, c'.HasNameToken token ↔ c.HasNameToken token)
    (hdirectory : ∀ token, c'.HasDirectoryToken token ↔ c.HasDirectoryToken token) :
    ComponentTokens.ofComponent c' = ComponentTokens.ofComponent c := by
  rw [ComponentTokens.mk.injEq]
  constructor
  · refine NameSet.ext_mem fun token => ?_
    rw [mem_name_ofComponent, mem_name_ofComponent, hname]
  · refine NameSet.ext_mem fun token => ?_
    rw [mem_directories_ofComponent, mem_directories_ofComponent, hdirectory]

end Tokens

/-- No role is chosen if and only if all scores are too low; otherwise it is the one of the
    first rule that attains the greatest score. So a worse rule makes no difference wherever
    it stands, and one that is no better makes none at the end. The name and the path of the
    component matter only by the sets of their tokens. -/
theorem classifyRole_chooses_first_best (c : Component Float) (rules : List RoleRule)
    (signals : RoleSignals) :
    (classifyRole rules c signals = none ↔
      ∀ rule ∈ rules, rule.scoreOf c signals < minRoleScore) ∧
    (∀ role score, classifyRole rules c signals = some (role, score) ↔
      ∃ rule, FirstBest c signals rules rule ∧ minRoleScore ≤ rule.scoreOf c signals ∧
        rule.role = role ∧ rule.scoreOf c signals = score) ∧
    (∀ before after rule role score, rules = before ++ after →
      classifyRole rules c signals = some (role, score) → rule.scoreOf c signals < score →
      classifyRole (before ++ rule :: after) c signals = some (role, score)) ∧
    (∀ rule role score, classifyRole rules c signals = some (role, score) →
      rule.scoreOf c signals ≤ score →
      classifyRole (rules ++ [rule]) c signals = some (role, score)) ∧
    ∀ name filePath, let c' := { c with name, filePath }
      (∀ token, c'.HasNameToken token ↔ c.HasNameToken token) →
      (∀ token, c'.HasDirectoryToken token ↔ c.HasDirectoryToken token) →
      classifyRole rules c' signals = classifyRole rules c signals := by
  refine ⟨classifyRole_eq_iff, fun role score => classifyRole_eq_iff, ?_, ?_, ?_⟩
  · rintro before after rule role score rfl hanswer hlt
    obtain ⟨best, hbest, hmin, hrole, rfl⟩ := classifyRole_eq_iff.1 hanswer
    exact classifyRole_eq_iff.2 ⟨best, hbest.insert hlt, hmin, hrole, rfl⟩
  · intro rule role score hanswer hle
    obtain ⟨best, hbest, hmin, hrole, rfl⟩ := classifyRole_eq_iff.1 hanswer
    exact classifyRole_eq_iff.2 ⟨best, hbest.concat (scoreOf_le_iff.1 hle), hmin, hrole, rfl⟩
  · intro name filePath c' hname hdirectory
    rw [classifyRole, classifyRole, ofComponent_congr hname hdirectory]
    rfl

/-- Its name speaks for a controller and for a service alike. -/
def serviceHandler : Component Float :=
  .ofRecord ⟨"handler", "ServiceHandler", "src/x.rs", 1, .empty, .empty, [], false, false⟩

def handlerRules : List RoleRule :=
  [⟨.controller, ["controller", "handler"], [.entryPoint]⟩, ⟨.service, ["service"], []⟩]

theorem classifyRole_chooses_first_best_serviceHandler :
    let signals : RoleSignals := ⟨false, false⟩
    classifyRole handlerRules serviceHandler signals = some (.controller, 1.0) ∧
    classifyRole (⟨.port, ["port"], []⟩ :: handlerRules) serviceHandler signals =
      some (.controller, 1.0) ∧
    classifyRole (handlerRules ++ [⟨.consumer, ["service"], [.stable]⟩]) serviceHandler signals =
      some (.controller, 1.0) ∧
    classifyRole handlerRules
        { serviceHandler with name := "service_Handler", filePath := "/src//x.test.rs" } signals =
      some (.controller, 1.0) := by
  intro signals
  have hanswer : classifyRole handlerRules serviceHandler signals = some (.controller, 1.0) := by
    decide +kernel
  have htokens : ComponentTokens.ofComponent
      { serviceHandler with name := "service_Handler", filePath := "/src//x.test.rs" } =
        .ofComponent serviceHandler := by
    decide +kernel
  obtain ⟨_, _, hinsert, happend, hsame⟩ :=
    classifyRole_chooses_first_best serviceHandler handlerRules signals
  refine ⟨hanswer, ?_, ?_, ?_⟩
  · exact hinsert [] handlerRules _ _ _ rfl hanswer (by decide +kernel)
  · exact happend _ _ _ hanswer (by decide +kernel)
  · rw [hsame "service_Handler" "/src//x.test.rs", hanswer]
    · intro token
      rw [← mem_name_ofComponent, ← mem_name_ofComponent, htokens]
    · intro token
      rw [← mem_directories_ofComponent, ← mem_directories_ofComponent, htokens]

end ArchAudit
