-- SUMMARY: Which record lists are refused, and that the error is about their first problem.
import ArchAudit.Proofs.Build
import Mathlib.Data.List.TakeWhile
import Mathlib.Order.Bounds.Basic

/-!
# Refused records

Records are checked in one pass, each for empty fields first and then against the ids before
it. So the error is about the least position that has a problem, whichever kind of problem it
is. A list without such a position makes a graph in which every id that an edge names is the
id of a component.
-/

namespace ArchAudit

-- ---------------------------------------------------------------------------
-- Empty fields
-- ---------------------------------------------------------------------------

namespace Text

theorem trimBoth_eq_nil_iff {p : Char → Bool} {cs : List Char} :
    trimBoth p cs = [] ↔ ∀ c ∈ cs, p c = true := by
  rw [trimBoth, List.reverse_eq_nil_iff, List.dropWhile_eq_nil_iff]
  simp only [List.mem_reverse]
  constructor
  · intro h c hc
    rw [← List.takeWhile_append_dropWhile (p := p) (l := cs), List.mem_append] at hc
    exact hc.elim List.mem_takeWhile_imp (h c)
  · intro h c hc
    exact h c ((List.dropWhile_sublist p).subset hc)

theorem trim_eq_empty_iff {s : String} : trim s = "" ↔ isBlankText s = true := by
  rw [trim, String.ofList_eq_empty_iff, trimBoth_eq_nil_iff, isBlankText, List.all_eq_true]

end Text

namespace ComponentRecord

/-- The first field that must not be empty and is, once it is trimmed. -/
def emptyField? (r : ComponentRecord) : Option String :=
  if Text.trim r.componentId = "" then some "component_id"
  else if Text.trim r.displayName = "" then some "display_name"
  else if Text.trim r.filePath = "" then some "file_path"
  else none

/-- What is said of a record with a problem: an empty field is named before a repeated id. -/
def errorAt (r : ComponentRecord) (index : Nat) : RecordError :=
  match r.emptyField? with
  | some field => .missingField index field
  | none => .duplicateComponent r.componentId

variable {r : ComponentRecord} {index : Nat} {seen : List ComponentId} {error : RecordError}

theorem emptyField?_eq_none_iff :
    r.emptyField? = none ↔ Text.trim r.componentId ≠ "" ∧ Text.trim r.displayName ≠ "" ∧
      Text.trim r.filePath ≠ "" := by
  unfold emptyField?
  split_ifs <;> simp_all

theorem map_find?_requiredFields (r : ComponentRecord) :
    (r.requiredFields.find? (Text.isBlankText ·.2)).map (·.1) = r.emptyField? := by
  simp only [requiredFields, emptyField?, Text.trim_eq_empty_iff, List.find?_cons, List.find?_nil]
  cases Text.isBlankText r.componentId with
  | true => rfl
  | false =>
    cases Text.isBlankText r.displayName with
    | true => rfl
    | false => cases Text.isBlankText r.filePath <;> rfl

theorem isComplete_iff : r.IsComplete ↔ r.emptyField? = none := by
  rw [← map_find?_requiredFields, Option.map_eq_none_iff, List.find?_eq_none]
  simp only [IsComplete, Bool.not_eq_true]

theorem problem?_eq_some_iff :
    r.problem? index seen = some error ↔
      (r.emptyField? ≠ none ∨ r.componentId ∈ seen) ∧ error = r.errorAt index := by
  rw [problem?, errorAt, ← map_find?_requiredFields]
  cases r.requiredFields.find? (Text.isBlankText ·.2) with
  | some field => simp [eq_comm]
  | none => by_cases hseen : r.componentId ∈ seen <;> simp [hseen, eq_comm]

end ComponentRecord

-- ---------------------------------------------------------------------------
-- Positions with a problem
-- ---------------------------------------------------------------------------

/-- The record at a position has an empty field or repeats the id of an earlier record. -/
def IsProblemAt (records : List ComponentRecord) (i : Nat) : Prop :=
  ∃ r ∈ records[i]?, r.emptyField? ≠ none ∨ r.componentId ∈ (records.take i).map (·.componentId)

instance (records : List ComponentRecord) : DecidablePred (IsProblemAt records) := fun i =>
  inferInstanceAs (Decidable (∃ r ∈ records[i]?, _))

variable {records : List ComponentRecord} {i j : Nat}

theorem isProblemAt_take : IsProblemAt (records.take i) j ↔ j < i ∧ IsProblemAt records j := by
  unfold IsProblemAt
  by_cases hj : j < i
  · rw [List.take_take, Nat.min_eq_left hj.le, List.getElem?_take_of_lt hj, and_iff_right hj]
  · simp only [List.getElem?_take, hj, if_false, Option.not_mem_none, false_and, exists_false]

theorem mem_map_take_iff {id : ComponentId} :
    id ∈ (records.take i).map (·.componentId) ↔
      ∃ j < i, ∃ s, records[j]? = some s ∧ s.componentId = id := by
  rw [List.mem_map]
  constructor
  · rintro ⟨s, hs, hid⟩
    obtain ⟨j, hs⟩ := List.mem_iff_getElem?.1 hs
    rw [List.getElem?_take] at hs
    by_cases hj : j < i
    · rw [if_pos hj] at hs
      exact ⟨j, hj, s, hs, hid⟩
    · rw [if_neg hj] at hs
      cases hs
  · rintro ⟨j, hj, s, hs, hid⟩
    exact ⟨s, List.mem_iff_getElem?.2 ⟨j, by rwa [List.getElem?_take_of_lt hj]⟩, hid⟩

/-- Records are accepted if no position has a problem. -/
theorem accepted_iff : Accepted records ↔ ∀ i, ¬ IsProblemAt records i := by
  constructor
  · rintro ⟨hcomplete, hdistinct⟩ i ⟨r, hr, hempty | hrepeated⟩
    · exact hempty (ComponentRecord.isComplete_iff.1 (hcomplete r (List.mem_of_getElem? hr)))
    · obtain ⟨j, hj, s, hs, hid⟩ := mem_map_take_iff.1 hrepeated
      have hlt : j < (records.map (·.componentId)).length := by
        rw [List.length_map]
        exact (List.getElem?_eq_some_iff.1 hs).1
      have hsame : (records.map (·.componentId))[j]? = (records.map (·.componentId))[i]? := by
        rw [List.getElem?_map, List.getElem?_map, hs, hr, Option.map_some, Option.map_some, hid]
      exact hj.ne ((List.getElem?_inj hlt hdistinct).1 hsame)
  · intro h
    refine ⟨fun r hr => ?_, List.nodup_iff_getElem?_ne_getElem?.2 fun j i hj hi hsame => ?_⟩
    · obtain ⟨i, hi⟩ := List.mem_iff_getElem?.1 hr
      by_contra hempty
      exact h i ⟨r, hi, .inl (mt ComponentRecord.isComplete_iff.2 hempty)⟩
    · rw [List.length_map] at hi
      rw [List.getElem?_map, List.getElem?_map, List.getElem?_eq_getElem hi,
        List.getElem?_eq_getElem (hj.trans hi), Option.map_some, Option.map_some,
        Option.some_inj] at hsame
      exact h i ⟨_, List.getElem?_eq_getElem hi,
        .inr (mem_map_take_iff.2 ⟨j, hj, _, List.getElem?_eq_getElem (hj.trans hi), hsame⟩)⟩

theorem accepted_take_iff : Accepted (records.take i) ↔ ∀ j < i, ¬ IsProblemAt records j := by
  simp only [accepted_iff, isProblemAt_take, not_and]

-- ---------------------------------------------------------------------------
-- The first problem
-- ---------------------------------------------------------------------------

/-- The pass stops at a record that has a problem after records that have none. -/
theorem firstProblem?_eq_some_iff {index : Nat} {seen : List ComponentId} {error : RecordError} :
    firstProblem? index seen records = some error ↔
      ∃ i r, records[i]? = some r ∧ firstProblem? index seen (records.take i) = none ∧
        r.problem? (index + i) (((records.take i).map (·.componentId)).reverse ++ seen) =
          some error := by
  induction records generalizing index seen with
  | nil => simp [firstProblem?]
  | cons r records ih =>
    rw [firstProblem?]
    cases hp : r.problem? index seen with
    | some first =>
      constructor
      · intro herror
        exact ⟨0, r, rfl, rfl, hp.trans herror⟩
      · rintro ⟨_ | i, s, hs, hnone, hproblem⟩
        · obtain rfl : r = s := Option.some_inj.1 hs
          exact hp.symm.trans hproblem
        · simp [firstProblem?, hp] at hnone
    | none =>
      -- One position on, the id of the first record is among those seen.
      have hids : ∀ i, (((r :: records).take (i + 1)).map (·.componentId)).reverse ++ seen =
          ((records.take i).map (·.componentId)).reverse ++ r.componentId :: seen := by
        simp
      have hindex : ∀ i, index + (i + 1) = index + 1 + i := by
        omega
      rw [ih]
      constructor
      · rintro ⟨i, s, hs, hnone, hproblem⟩
        refine ⟨i + 1, s, hs, ?_, ?_⟩
        · rwa [List.take_succ_cons, firstProblem?, hp]
        · rwa [hids, hindex]
      · rintro ⟨_ | i, s, hs, hnone, hproblem⟩
        · obtain rfl : r = s := Option.some_inj.1 hs
          cases hp.symm.trans hproblem
        · rw [List.take_succ_cons, firstProblem?, hp] at hnone
          rw [hids, hindex] at hproblem
          exact ⟨i, s, hs, hnone, hproblem⟩

theorem firstProblem?_eq_some_iff_isLeast {error : RecordError} :
    firstProblem? 0 [] records = some error ↔
      ∃ i r, IsLeast {i | IsProblemAt records i} i ∧ records[i]? = some r ∧
        error = r.errorAt i := by
  simp only [firstProblem?_eq_some_iff, firstProblem?_zero_eq_none_iff, accepted_take_iff,
    ComponentRecord.problem?_eq_some_iff, List.append_nil, List.mem_reverse, Nat.zero_add]
  constructor
  · rintro ⟨i, r, hr, hbefore, hproblem, herror⟩
    refine ⟨i, r, ⟨⟨r, hr, hproblem⟩, fun j hj => ?_⟩, hr, herror⟩
    by_contra hlt
    exact hbefore j (Nat.lt_of_not_le hlt) hj
  · rintro ⟨i, r, ⟨⟨s, hs, hproblem⟩, hleast⟩, hr, herror⟩
    obtain rfl : s = r := Option.some_inj.1 (hs.symm.trans hr)
    exact ⟨i, s, hr, fun j hj hbad => Nat.not_le.2 hj (hleast hbad), hproblem, herror⟩

-- ---------------------------------------------------------------------------
-- Build
-- ---------------------------------------------------------------------------

namespace GraphBuild

variable {α : Type} [Scalar α]

theorem ofRecords_eq_error_iff {error : RecordError} :
    (ofRecords records : Except RecordError (GraphBuild α)) = .error error ↔
      firstProblem? 0 [] records = some error := by
  rw [ofRecords]
  cases firstProblem? 0 [] records <;> simp

/-- A graph is made from records if their fields are filled and their ids distinct, and then the
    ends of all edges are components. Otherwise the error is about the first record with an
    empty field or a repeated id. -/
theorem ofRecords_refuses_first_problem (records : List ComponentRecord) :
    ((∃ build : GraphBuild α, ofRecords records = .ok build) ↔
      (∀ r ∈ records, Text.trim r.componentId ≠ "" ∧ Text.trim r.displayName ≠ "" ∧
        Text.trim r.filePath ≠ "") ∧
      records.Pairwise (·.componentId ≠ ·.componentId)) ∧
    (∀ error, (ofRecords records : Except RecordError (GraphBuild α)) = .error error ↔
      ∃ i r, IsLeast {i | IsProblemAt records i} i ∧ records[i]? = some r ∧
        error = r.errorAt i) ∧
    ∀ build : GraphBuild α, ofRecords records = .ok build → build.graph.WellFormed := by
  refine ⟨?_, fun error => ?_, fun build => wellFormed_of_ofRecords⟩
  · simp only [ofRecords_eq_ok_iff, exists_and_left, exists_eq, and_true,
      ← ComponentRecord.emptyField?_eq_none_iff, ← ComponentRecord.isComplete_iff]
    exact ⟨fun h => ⟨h.complete, List.pairwise_map.1 h.distinct⟩,
      fun h => ⟨h.1, List.pairwise_map.2 h.2⟩⟩
  · rw [ofRecords_eq_error_iff, firstProblem?_eq_some_iff_isLeast]

/-- The third record repeats an id, and the fourth has two empty fields. -/
def clashingRecords : List ComponentRecord :=
  [⟨"orders", "Orders", "lib/orders.rs", 3, .empty, .empty, [⟨"api", .calls, []⟩], false, false⟩,
   ⟨"api", "Api", "src/api.rs", 3, .empty, .empty, [⟨"Orders", .imports, []⟩], false, false⟩,
   ⟨"orders", "Billing", "lib/billing.rs", 3, .empty, .empty, [], false, false⟩,
   ⟨"stock", "\t ", "", 3, .empty, .empty, [], false, false⟩]

theorem ofRecords_refuses_first_problem_clashingRecords :
    (ofRecords clashingRecords : Except RecordError (GraphBuild Float)) =
      .error (.duplicateComponent "orders") ∧
    (ofRecords (clashingRecords.eraseIdx 2) : Except RecordError (GraphBuild Float)) =
      .error (.missingField 2 "display_name") ∧
    ∃ build : GraphBuild Float, ofRecords (clashingRecords.take 2) = .ok build ∧
      build.graph.WellFormed := by
  have hleast : ∀ {records}, IsProblemAt records 2 → (∀ j < 2, ¬ IsProblemAt records j) →
      IsLeast {i | IsProblemAt records i} 2 := fun hproblem hbefore =>
    ⟨hproblem, fun j hj => Nat.le_of_not_lt fun hlt => hbefore j hlt hj⟩
  obtain ⟨-, hclash, -⟩ := ofRecords_refuses_first_problem (α := Float) clashingRecords
  obtain ⟨-, hempty, -⟩ :=
    ofRecords_refuses_first_problem (α := Float) (clashingRecords.eraseIdx 2)
  obtain ⟨hok, -, hwellFormed⟩ :=
    ofRecords_refuses_first_problem (α := Float) (clashingRecords.take 2)
  refine ⟨?_, ?_, ?_⟩
  · exact (hclash _).2 ⟨2, _, hleast (by decide) (by decide), rfl, by decide⟩
  · exact (hempty _).2 ⟨2, _, hleast (by decide) (by decide), rfl, by decide⟩
  · obtain ⟨build, hbuild⟩ := hok.2 (by decide)
    exact ⟨build, hbuild, hwellFormed build hbuild⟩

end GraphBuild

end ArchAudit
