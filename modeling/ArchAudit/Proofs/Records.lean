-- SUMMARY: Which record lists make a graph, and the one order in which they are processed.
import ArchAudit.Graph.Build
import ArchAudit.Proofs.Names
import Mathlib.Data.List.Forall2

/-!
# Accepted records

A list of records is accepted if every record is complete and no id is repeated.
Both conditions ignore the order of the records. Since ids are distinct, there is
one ascending arrangement of an accepted list, and `sortRecords` finds it from any
other.
-/

namespace ArchAudit

-- ---------------------------------------------------------------------------
-- Acceptance
-- ---------------------------------------------------------------------------

/-- No required field of the record is blank. -/
def ComponentRecord.IsComplete (r : ComponentRecord) : Prop :=
  ∀ f ∈ r.requiredFields, Text.isBlankText f.2 = false

/-- The records are complete and have distinct ids. -/
structure Accepted (records : List ComponentRecord) : Prop where
  complete : ∀ r ∈ records, r.IsComplete
  distinct : (records.map (·.componentId)).Nodup

theorem ComponentRecord.problem?_eq_none_iff {r : ComponentRecord} {index : Nat}
    {seen : List ComponentId} :
    r.problem? index seen = none ↔ r.IsComplete ∧ r.componentId ∉ seen := by
  unfold problem?
  split
  next field value hfind =>
    have hblank := List.find?_some hfind
    have hmem := List.mem_of_find?_eq_some hfind
    refine ⟨nofun, fun h => ?_⟩
    have hfull := h.1 _ hmem
    rw [hfull] at hblank
    cases hblank
  next hfind =>
    have hcomplete : r.IsComplete := fun f hf => by
      simpa using List.find?_eq_none.1 hfind f hf
    by_cases hseen : r.componentId ∈ seen <;> simp [hcomplete, hseen]

theorem accepted_nil : Accepted [] :=
  ⟨nofun, List.nodup_nil⟩

theorem accepted_cons {r : ComponentRecord} {records : List ComponentRecord} :
    Accepted (r :: records) ↔
      r.IsComplete ∧ (∀ s ∈ records, s.componentId ≠ r.componentId) ∧ Accepted records := by
  constructor
  · rintro ⟨hcomplete, hdistinct⟩
    obtain ⟨hnot, hdistinct⟩ := List.nodup_cons.1 hdistinct
    obtain ⟨hr, hcomplete⟩ := List.forall_mem_cons.1 hcomplete
    exact ⟨hr, fun s hs hid => hnot (List.mem_map.2 ⟨s, hs, hid⟩), hcomplete, hdistinct⟩
  · rintro ⟨hr, hfresh, hcomplete, hdistinct⟩
    refine ⟨List.forall_mem_cons.2 ⟨hr, hcomplete⟩, List.nodup_cons.2 ⟨fun hmem => ?_, hdistinct⟩⟩
    obtain ⟨s, hs, hid⟩ := List.mem_map.1 hmem
    exact hfresh s hs hid

theorem firstProblem?_eq_none_iff {index : Nat} {seen : List ComponentId}
    {records : List ComponentRecord} :
    firstProblem? index seen records = none ↔
      Accepted records ∧ ∀ r ∈ records, r.componentId ∉ seen := by
  induction records generalizing index seen with
  | nil => exact ⟨fun _ => ⟨accepted_nil, nofun⟩, fun _ => rfl⟩
  | cons r records ih =>
    rw [firstProblem?, accepted_cons, List.forall_mem_cons]
    cases hp : r.problem? index seen with
    | some error =>
      refine ⟨nofun, ?_⟩
      rintro ⟨⟨hcomplete, -, -⟩, hseen, -⟩
      rw [ComponentRecord.problem?_eq_none_iff.2 ⟨hcomplete, hseen⟩] at hp
      cases hp
    | none =>
      obtain ⟨hcomplete, hseen⟩ := ComponentRecord.problem?_eq_none_iff.1 hp
      -- The id of the first record counts as seen for the others.
      simp only [ih, List.mem_cons, not_or]
      constructor
      · rintro ⟨hrest, hfresh⟩
        exact ⟨⟨hcomplete, fun s hs => (hfresh s hs).1, hrest⟩, hseen, fun s hs => (hfresh s hs).2⟩
      · rintro ⟨⟨-, hdistinct, hrest⟩, -, hfresh⟩
        exact ⟨hrest, fun s hs => ⟨hdistinct s hs, hfresh s hs⟩⟩

theorem firstProblem?_zero_eq_none_iff {records : List ComponentRecord} :
    firstProblem? 0 [] records = none ↔ Accepted records := by
  rw [firstProblem?_eq_none_iff]
  simp only [List.not_mem_nil, not_false_eq_true, implies_true, and_true]

section Build

variable {α : Type} [Scalar α] {records records' : List ComponentRecord}

/-- Accepted records, and no others, make a graph: that of their arrangement. -/
theorem GraphBuild.ofRecords_eq_ok_iff {build : GraphBuild α} :
    GraphBuild.ofRecords records = .ok build ↔
      Accepted records ∧ build = .ofSorted (sortRecords records) := by
  rw [ofRecords, ← firstProblem?_zero_eq_none_iff]
  cases firstProblem? 0 [] records with
  | none => simp [eq_comm]
  | some error => simp

theorem Accepted.perm (hperm : records.Perm records') (h : Accepted records) :
    Accepted records' where
  complete r hr := h.complete r (hperm.mem_iff.2 hr)
  distinct := (hperm.map _).nodup_iff.1 h.distinct

-- ---------------------------------------------------------------------------
-- Arrangement
-- ---------------------------------------------------------------------------

theorem sortRecords_perm (records : List ComponentRecord) : (sortRecords records).Perm records :=
  List.mergeSort_perm _ _

theorem pairwise_sortRecords (h : (records.map (·.componentId)).Nodup) :
    (sortRecords records).Pairwise (·.componentId < ·.componentId) := by
  have hle : (sortRecords records).Pairwise fun a b => a.componentId ≤ b.componentId := by
    unfold sortRecords
    refine (List.pairwise_mergeSort ?_ ?_ records).imp of_decide_eq_true
    · intro a b c hab hbc
      exact decide_eq_true (le_trans (of_decide_eq_true hab) (of_decide_eq_true hbc))
    · intro a b
      simpa using le_total a.componentId b.componentId
  have hne : (sortRecords records).Pairwise fun a b => a.componentId ≠ b.componentId :=
    List.pairwise_map.1 (((sortRecords_perm records).map _).nodup_iff.2 h)
  exact hle.imp₂ (fun a b hle hne => lt_of_le_of_ne hle hne) hne

/-- An ascending list is the arrangement of all its permutations. -/
theorem eq_sortRecords {sorted : List ComponentRecord} (hperm : sorted.Perm records)
    (h : sorted.Pairwise (·.componentId < ·.componentId)) : sorted = sortRecords records := by
  have hdistinct : (records.map (·.componentId)).Nodup :=
    (hperm.map _).nodup_iff.1 (List.pairwise_map.2 (h.imp fun hlt => ne_of_lt hlt))
  refine List.Perm.eq_of_pairwise ?_ h (pairwise_sortRecords hdistinct)
    (hperm.trans (sortRecords_perm records).symm)
  exact fun a b _ _ hab hba => absurd hba (lt_asymm hab)

/-- Records that arrive in order are taken as they are. -/
theorem GraphBuild.ofRecords_of_ascending (hnone : firstProblem? 0 [] records = none)
    (h : records.Pairwise (·.componentId < ·.componentId)) :
    ofRecords records = .ok (ofSorted records : GraphBuild α) := by
  rw [ofRecords, hnone, ← eq_sortRecords (List.Perm.refl records) h]

theorem sortRecords_eq_of_perm (hperm : records.Perm records')
    (h : (records.map (·.componentId)).Nodup) : sortRecords records = sortRecords records' :=
  eq_sortRecords ((sortRecords_perm records).trans hperm) (pairwise_sortRecords h)

end Build

-- ---------------------------------------------------------------------------
-- References
-- ---------------------------------------------------------------------------

theorem mem_mentions {records : List ComponentRecord} {m : Mention} :
    m ∈ mentions records ↔
      ∃ r ∈ records, r.componentId = m.source ∧ m.reference ∈ r.references := by
  obtain ⟨source, reference⟩ := m
  simp only [mentions, List.mem_flatMap, List.mem_map, Mention.mk.injEq]
  constructor
  · rintro ⟨r, hr, reference', hmem, rfl, rfl⟩
    exact ⟨r, hr, rfl, hmem⟩
  · rintro ⟨r, hr, rfl, hmem⟩
    exact ⟨r, hr, reference, hmem, rfl, rfl⟩

theorem mentions_cons (r : ComponentRecord) (records : List ComponentRecord) :
    mentions (r :: records) = r.references.map (Mention.mk r.componentId) ++ mentions records :=
  rfl

theorem mentions_perm {records records' : List ComponentRecord} (h : records.Perm records') :
    (mentions records).Perm (mentions records') :=
  h.flatMap_right _

theorem length_mentions (records : List ComponentRecord) :
    (mentions records).length = (records.flatMap (·.references)).length := by
  simp [mentions, List.length_flatMap]

end ArchAudit
