-- SUMMARY: The advice on some kinds of violations is the advice for the violations of those kinds.
import ArchAudit.Analysis.Recommendation
import Mathlib.Data.List.Basic

/-!
# Advice

The recommendations are sorted by a relation that orders any two of them, and sorting is
stable. So leaving out the advice on one kind of violation comes to the same as leaving
out the violations of that kind.
-/

namespace ArchAudit

/-! ## Stable sorting -/

section Sorting

variable {β : Type} {le : β → β → Bool} (trans : ∀ a b c, le a b → le b c → le a c)
  (total : ∀ a b, le a b || le b a)

include trans total

/-- A first element goes behind those that it must not precede. -/
theorem mergeSort_cons_eq (b : β) (l : List β) :
    (b :: l).mergeSort le =
      (l.mergeSort le).filter (!le b ·) ++ b :: (l.mergeSort le).filter (le b ·) := by
  obtain ⟨before, after, hcons, hrest, hbefore⟩ := List.mergeSort_cons trans total b l
  have hsorted := List.pairwise_mergeSort trans total (b :: l)
  rw [hcons] at hsorted
  have hafter := (List.pairwise_cons.1 (List.pairwise_append.1 hsorted).2.1).1
  have hleft : ∀ c ∈ before, le b c = false := by
    intro c hc
    simpa using hbefore c hc
  rw [hcons, hrest, List.filter_append, List.filter_append]
  rw [List.filter_eq_self.2 hbefore, List.filter_eq_self.2 hafter,
    List.filter_eq_nil_iff.2 (by intro c hc; simp [hafter c hc]),
    List.filter_eq_nil_iff.2 (by intro c hc; simp [hleft c hc]), List.append_nil, List.nil_append]

/-- Elements can be chosen before or after sorting. -/
theorem filter_mergeSort (p : β → Bool) (l : List β) :
    (l.mergeSort le).filter p = (l.filter p).mergeSort le := by
  induction l with
  | nil => simp
  | cons b l ih =>
    cases hb : p b with
    | true =>
      have hcomm (q : β → Bool) :
          ((l.mergeSort le).filter q).filter p = ((l.filter p).mergeSort le).filter q := by
        rw [← ih, List.filter_filter, List.filter_filter]
        simp only [Bool.and_comm]
      rw [mergeSort_cons_eq trans total, List.filter_append, List.filter_cons_of_pos hb, hcomm,
        hcomm, List.filter_cons_of_pos hb, mergeSort_cons_eq trans total]
    | false =>
      have hb' : ¬ p b = true := by simp [hb]
      obtain ⟨before, after, hcons, hrest, _⟩ := List.mergeSort_cons trans total b l
      rw [hcons, List.filter_append, List.filter_cons_of_neg hb', ← List.filter_append, ← hrest, ih,
        List.filter_cons_of_neg hb']

end Sorting

/-! ## Choosing advice -/

namespace RefactoringCategory

theorem ofViolation_injective {kind kind' : ViolationKind}
    (h : ofViolation kind = ofViolation kind') : kind = kind' := by
  cases kind <;> cases kind' <;> first | rfl | cases h

theorem ofIntent_ne_ofViolation (intent : IntentKind) (kind : ViolationKind) :
    ofIntent intent ≠ ofViolation kind := by
  cases intent <;> cases kind <;> decide

end RefactoringCategory

namespace Recommendation

variable {α : Type}

theorem precedes_trans (a b c : Recommendation) (hab : a.precedes b) (hbc : b.precedes c) :
    a.precedes c := by
  simp only [precedes, Bool.or_eq_true, Bool.and_eq_true, decide_eq_true_iff] at *
  omega

theorem precedes_total (a b : Recommendation) : a.precedes b || b.precedes a := by
  simp only [precedes, Bool.or_eq_true, Bool.and_eq_true, decide_eq_true_iff]
  omega

theorem filter_ofViolations (kind : ViolationKind) (violations : List (Violation α)) :
    (ofViolations violations).filter (·.category ≠ .ofViolation kind) =
      ofViolations (violations.filter (·.kind ≠ kind)) := by
  rw [ofViolations, ofViolations, List.filter_filterMap]
  apply List.filterMap_congr
  intro other _
  by_cases heq : other = kind
  · subst heq
    have hnone : (violations.filter (·.kind ≠ other)).filter (·.kind = other) = [] := by
      simp
    rw [hnone]
    cases violations.filter (·.kind = other) with
    | nil => rfl
    | cons v group => simp [ofGroup]
  · have hsame : (violations.filter (·.kind ≠ kind)).filter (·.kind = other) =
        violations.filter (·.kind = other) := by
      rw [List.filter_filter]
      apply List.filter_congr
      intro v _
      by_cases hv : v.kind = other <;> simp [hv, heq]
    have hcategory : RefactoringCategory.ofViolation other ≠ .ofViolation kind := by
      intro h
      exact heq (RefactoringCategory.ofViolation_injective h)
    rw [hsame]
    cases violations.filter (·.kind = other) with
    | nil => rfl
    | cons v group => simp [ofGroup, hcategory]

variable [Scalar α]

/-- The advice for an intent is about its kind and the components that weaken it, and
    cites no violations. -/
theorem ofIntent?_eq_some {threshold : α} {r : IntentResult α} {advice : Recommendation}
    (h : ofIntent? threshold r = some advice) :
    advice.relatedViolations = [] ∧ advice.category = .ofIntent r.kind ∧
      advice.affectedComponents = weakened r := by
  unfold ofIntent? at h
  split at h
  · cases h
  · split at h
    · cases h
      exact ⟨rfl, rfl, rfl⟩
    · cases h

/-- The advice on other kinds is the advice for the other violations. -/
theorem filter_recommend (threshold : α) (kind : ViolationKind) (violations : List (Violation α))
    (intents : List (IntentResult α)) :
    (recommend threshold violations intents).filter (·.category ≠ .ofViolation kind) =
      recommend threshold (violations.filter (·.kind ≠ kind)) intents := by
  have hintents : (intents.filterMap (ofIntent? threshold)).filter
      (·.category ≠ .ofViolation kind) = intents.filterMap (ofIntent? threshold) := by
    rw [List.filter_eq_self]
    intro advice hadvice
    obtain ⟨r, _, hr⟩ := List.mem_filterMap.1 hadvice
    refine decide_eq_true ?_
    rw [(ofIntent?_eq_some hr).2.1]
    exact RefactoringCategory.ofIntent_ne_ofViolation r.kind kind
  rw [recommend, recommend, filter_mergeSort precedes_trans precedes_total, List.filter_append,
    filter_ofViolations, hintents]

end Recommendation

end ArchAudit
