-- SUMMARY: What the result of a style says about its own violations.
import ArchAudit.Proofs.Names
import ArchAudit.Style.Detect

/-!
# Style results

The violations of a result are those of the pairs that its roles bring into scope and
the rule rejects. All of them name the style, and the result counts them.
-/

namespace ArchAudit

/-- The violations of the result are layer violations of its style, as many as it
    counts and no more than there are pairs in scope. -/
structure StyleResult.Consistent {α : Type} (r : StyleResult α) : Prop where
  kind : ∀ v ∈ r.violations, v.kind = .layerViolation
  style : ∀ v ∈ r.violations, v.style = some r.style
  counted : r.violations.length = r.metrics.violatingEdges
  inScope : r.violations.length ≤ r.metrics.inScopeEdges

namespace StyleTable

variable {α : Type} [Scalar α] {t : StyleTable}

theorem kind_of_mem_violations {judged : List (Judged α)} {v : Violation α}
    (h : v ∈ t.violations judged) : v.kind = .layerViolation := by
  obtain ⟨i, _, rfl⟩ := List.mem_mapIdx.1 h
  rfl

theorem style_of_mem_violations {judged : List (Judged α)} {v : Violation α}
    (h : v ∈ t.violations judged) : v.style = some t.style := by
  obtain ⟨i, _, rfl⟩ := List.mem_mapIdx.1 h
  rfl

theorem length_violations_le (t : StyleTable) (judged : List (Judged α)) :
    (t.violations judged).length ≤ judged.length := by
  rw [violations, List.length_mapIdx]
  exact List.length_filterMap_le _ _

/-- The violations of a result are those of the pairs judged by its own roles. -/
theorem violations_detect (t : StyleTable) (config : StyleConfig α) (g : Graph α)
    (intents : List (IntentResult α)) :
    (t.detect config g intents).violations =
      t.violations (t.judge g (t.detect config g intents).roleAssignment) := by
  unfold detect
  split
  · -- Without roles there is no pair to judge.
    have hjudge : t.judge g .empty = [] := by simp [judge, endpoint?]
    rw [StyleResult.empty, hjudge]
    rfl
  · rfl

@[simp] theorem style_detect (t : StyleTable) (config : StyleConfig α) (g : Graph α)
    (intents : List (IntentResult α)) : (t.detect config g intents).style = t.style := by
  unfold detect
  split <;> rfl

theorem consistent_detect (t : StyleTable) (config : StyleConfig α) (g : Graph α)
    (intents : List (IntentResult α)) : (t.detect config g intents).Consistent where
  kind v hv := by
    rw [violations_detect] at hv
    exact kind_of_mem_violations hv
  style v hv := by
    rw [violations_detect] at hv
    rw [style_detect, style_of_mem_violations hv]
  counted := by
    unfold detect
    split <;> rfl
  inScope := by
    unfold detect
    split
    · exact Nat.le_refl 0
    · exact t.length_violations_le _

end StyleTable

end ArchAudit
