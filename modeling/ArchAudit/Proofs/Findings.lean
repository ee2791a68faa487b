-- SUMMARY: The findings of a graph kind by kind, and the components that they name.
import ArchAudit.AntiPattern.Detect
import Mathlib.Data.List.Forall2

/-!
# Findings

The anti-patterns of a graph are listed in blocks, one for each kind. Choosing findings by
their kind therefore chooses whole blocks. Cycles and mutual dependencies name the
components they were found from.
-/

namespace ArchAudit

/-- Numbering the elements does not show in what ignores the numbers. -/
theorem map_mapIdx_eq_map {β γ δ : Type} {f : Nat → β → γ} {p : γ → δ} {q : β → δ}
    (h : ∀ i b, p (f i b) = q b) (l : List β) : (l.mapIdx f).map p = l.map q := by
  refine List.ext_getElem (by simp) ?_
  intro i _ _
  simp [h]

/-- Numbering keeps what corresponds opposite each other. -/
theorem forall₂_mapIdx {β β' γ γ' : Type} {R : β → β' → Prop} {S : γ → γ' → Prop}
    {f : Nat → β → γ} {f' : Nat → β' → γ'} (hf : ∀ i b b', R b b' → S (f i b) (f' i b'))
    {l : List β} {l' : List β'} (h : List.Forall₂ R l l') :
    List.Forall₂ S (l.mapIdx f) (l'.mapIdx f') := by
  induction h generalizing f f' with
  | nil => exact .nil
  | cons hb _ ih =>
    rw [List.mapIdx_cons, List.mapIdx_cons]
    exact .cons (hf 0 _ _ hb) (ih fun i b b' => hf (i + 1) b b')

/-- A test that only depends on the block selects whole blocks. -/
theorem filter_flatMap_blocks {β γ : Type} {f : β → List γ} {p : γ → Bool} {q : β → Bool}
    {l : List β} (h : ∀ b ∈ l, ∀ c ∈ f b, p c = q b) :
    (l.flatMap f).filter p = (l.filter q).flatMap f := by
  induction l with
  | nil => rfl
  | cons b l ih =>
    have hblock := h b List.mem_cons_self
    rw [List.flatMap_cons, List.filter_append, ih fun d hd => h d (List.mem_cons_of_mem _ hd)]
    cases hq : q b with
    | true =>
      rw [List.filter_cons_of_pos hq, List.flatMap_cons,
        List.filter_eq_self.2 fun c hc => (hblock c hc).trans hq]
    | false =>
      have hnone : (f b).filter p = [] := by
        rw [List.filter_eq_nil_iff]
        intro c hc
        simp [hblock c hc, hq]
      rw [List.filter_cons_of_neg (by simp [hq]), hnone, List.nil_append]

namespace AntiPattern

variable {α : Type} [Scalar α]

theorem map_participants_cycles (g : Graph α) :
    (cycles g).map (·.participants) = g.cycles.map (·.members) := by
  apply map_mapIdx_eq_map
  intro i c
  rfl

theorem exists_cycle_iff {g : Graph α} {members : List ComponentId} :
    (∃ v ∈ cycles g, v.participants = members) ↔ ∃ c ∈ g.cycles, c.members = members := by
  rw [← List.mem_map, ← List.mem_map, map_participants_cycles]

theorem map_participants_bidirectionalCoupling (g : Graph α) :
    (bidirectionalCoupling g).map (·.participants) = (mutualPairs g).map fun p => [p.1, p.2] := by
  apply map_mapIdx_eq_map
  intro i p
  rfl

theorem tightCoupling_of_components {config : AntiPatternConfig α} {g g' : Graph α}
    (h : g'.components = g.components) : tightCoupling config g' = tightCoupling config g := by
  simp only [tightCoupling, couplingReference, h]

theorem godComponents_of_components {config : AntiPatternConfig α} {g g' : Graph α}
    (h : g'.components = g.components) : godComponents config g' = godComponents config g := by
  simp only [godComponents, h]

/-- The blocks of findings with their kinds, in the order in which they are listed. -/
def blocks (config : AntiPatternConfig α) (g : Graph α) (styles : List (StyleResult α))
    (classification : Classification) : List (ViolationKind × List (Violation α)) :=
  [(.cycle, cycles g), (.tightCoupling, tightCoupling config g),
   (.bidirectionalCoupling, bidirectionalCoupling g), (.godComponent, godComponents config g),
   (.erosion, erosion styles classification)]

variable {config : AntiPatternConfig α} {g : Graph α} {styles : List (StyleResult α)}
  {classification : Classification}

theorem detect_eq_blocks : detect config g styles classification =
    (blocks config g styles classification).flatMap (·.2) := by
  simp [detect, blocks]

theorem kind_of_mem_block {b : ViolationKind × List (Violation α)}
    (hb : b ∈ blocks config g styles classification) {v : Violation α} (hv : v ∈ b.2) :
    v.kind = b.1 := by
  simp only [blocks, List.mem_cons, List.not_mem_nil, or_false] at hb
  rcases hb with rfl | rfl | rfl | rfl | rfl
  all_goals
    obtain ⟨i, _, rfl⟩ := List.mem_mapIdx.1 hv
    rfl

/-- Findings chosen by their kinds are the blocks of those kinds. -/
theorem filter_detect (test : ViolationKind → Bool) :
    (detect config g styles classification).filter (fun v => test v.kind) =
      ((blocks config g styles classification).filter fun b => test b.1).flatMap (·.2) := by
  rw [detect_eq_blocks]
  apply filter_flatMap_blocks
  intro b hb v hv
  rw [kind_of_mem_block hb hv]

end AntiPattern

end ArchAudit
