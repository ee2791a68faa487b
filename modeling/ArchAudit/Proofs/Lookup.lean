-- SUMMARY: A reference means the components of the first of five sets that is not empty.
import ArchAudit.Proofs.Build
import Mathlib.Data.List.Infix

/-!
# Reference lookup

Which components a normalized reference matches is said here for each step on its own, in
terms of paths, ids and names. A reference is then answered by the first step that any
component matches, and by no other. The step by name comes after the one by path without the
reference's extension, so a name that contains a dot can lose to the path of another
component.
-/

namespace ArchAudit

open ReferenceText

/-! ## What a reference can match -/

/-- One of the lists is the beginning of the other, and neither is empty. -/
def Overlap (p q : List String) : Prop :=
  p ≠ [] ∧ q ≠ [] ∧ (p <+: q ∨ q <+: p)

instance (p q : List String) : Decidable (Overlap p q) :=
  inferInstanceAs (Decidable (_ ∧ _ ∧ _))

namespace Component

variable {α : Type}

/-- The text is the path of the component, its path without extension, or its id. -/
def IsAddressedBy (c : Component α) (text : String) : Prop :=
  text = normalize c.filePath ∨ text = stripExtension (normalize c.filePath) ∨ text = c.id

instance (c : Component α) (text : String) : Decidable (c.IsAddressedBy text) :=
  inferInstanceAs (Decidable (_ ∨ _ ∨ _))

def pathSegments (c : Component α) : List String :=
  segments (stripExtension (normalize c.filePath))

end Component

namespace Address

variable {α : Type}

@[simp] theorem id_ofComponent (c : Component α) : (ofComponent c).id = c.id := rfl

@[simp] theorem name_ofComponent (c : Component α) : (ofComponent c).name = c.name := rfl

@[simp] theorem path_ofComponent (c : Component α) : (ofComponent c).path = c.pathSegments := by
  simp only [ofComponent, ofParts, Component.pathSegments]

@[simp] theorem mem_keys_ofComponent {c : Component α} {text : String} :
    text ∈ (ofComponent c).keys ↔ c.IsAddressedBy text := by
  simp only [ofComponent, ofParts, Component.IsAddressedBy, List.mem_cons, List.not_mem_nil,
    or_false]

end Address

/-- The steps of a lookup. -/
inductive LookupStep where
  | path
  | pathWithoutExtension
  | name
  | nameOfLastSegment
  | sharedPrefix
deriving DecidableEq, Repr

namespace LookupStep

variable {α : Type}

/-- The order in which the steps are tried. -/
def all : List LookupStep :=
  [.path, .pathWithoutExtension, .name, .nameOfLastSegment, .sharedPrefix]

def strategy : LookupStep → MatchStrategy
  | .path | .pathWithoutExtension => .exactPath
  | .name | .nameOfLastSegment => .exactName
  | .sharedPrefix => .commonPrefix

/-- The component's path overlaps the reference, which another component makes. -/
def OverlapsOther (source : ComponentId) (wanted : List String) (c : Component α) : Prop :=
  c.id ≠ source ∧ Overlap wanted c.pathSegments

instance (source : ComponentId) (wanted : List String) (c : Component α) :
    Decidable (OverlapsOther source wanted c) :=
  inferInstanceAs (Decidable (_ ∧ _))

/-- The component is one of those that a normalized reference of `source` means by a step.
    Lists that overlap share as much as the shorter of them. -/
def Matches (components : List (Component α)) (source : ComponentId) (n : String) :
    LookupStep → Component α → Prop
  | .path, c => c.IsAddressedBy n
  | .pathWithoutExtension, c => c.id ≠ source ∧ c.IsAddressedBy (stripExtension n)
  | .name, c => c.name = n
  | .nameOfLastSegment, c => c.id ≠ source ∧ c.name = lastSegment n
  | .sharedPrefix, c =>
    OverlapsOther source (segments n) c ∧
      ∀ d ∈ components, OverlapsOther source (segments n) d →
        min (segments n).length d.pathSegments.length ≤
          min (segments n).length c.pathSegments.length

instance (components : List (Component α)) (source : ComponentId) (n : String)
    (step : LookupStep) : DecidablePred (step.Matches components source n) := fun c =>
  match step with
  | .path => inferInstanceAs (Decidable (c.IsAddressedBy n))
  | .pathWithoutExtension => inferInstanceAs (Decidable (_ ∧ c.IsAddressedBy _))
  | .name => inferInstanceAs (Decidable (c.name = n))
  | .nameOfLastSegment => inferInstanceAs (Decidable (_ ∧ _))
  | .sharedPrefix => inferInstanceAs (Decidable (_ ∧ ∀ d ∈ components, _))

/-- The components that match a step. -/
def candidates (components : List (Component α)) (source : ComponentId) (n : String)
    (step : LookupStep) : List ComponentId :=
  (components.filter (step.Matches components source n ·)).map (·.id)

/-- The step is the first one that any component matches. -/
def IsFirst (components : List (Component α)) (source : ComponentId) (n : String)
    (step : LookupStep) : Prop :=
  (∃ c ∈ components, step.Matches components source n c) ∧
    ∀ earlier ∈ all.takeWhile (· ≠ step), ∀ c ∈ components, ¬ earlier.Matches components source n c

variable {components : List (Component α)} {source : ComponentId} {n : String} {step : LookupStep}

theorem mem_candidates {id : ComponentId} :
    id ∈ step.candidates components source n ↔
      ∃ c ∈ components, c.id = id ∧ step.Matches components source n c := by
  simp [candidates, and_comm, and_left_comm]

theorem candidates_eq_nil_iff :
    step.candidates components source n = [] ↔
      ∀ c ∈ components, ¬ step.Matches components source n c := by
  simp [candidates]

theorem pairwise_candidates (h : components.Pairwise (·.id < ·.id)) :
    (step.candidates components source n).Pairwise (· < ·) :=
  List.pairwise_map.2 (h.filter _)

theorem find?_of_isFirst (h : step.IsFirst components source n) :
    all.find? (fun step => !(step.candidates components source n).isEmpty) = some step := by
  have hsplit : all = all.takeWhile (· ≠ step) ++ step :: (all.dropWhile (· ≠ step)).tail := by
    cases step <;> rfl
  obtain ⟨⟨c, hc, hmatches⟩, hearlier⟩ := h
  refine List.find?_eq_some_iff_append.2 ⟨?_, _, _, hsplit, ?_⟩
  · rw [Bool.not_eq_true', List.isEmpty_eq_false_iff, Ne, candidates_eq_nil_iff]
    intro hnone
    exact hnone c hc hmatches
  · intro earlier hmem
    rw [Bool.not_not, List.isEmpty_iff, candidates_eq_nil_iff]
    exact hearlier earlier hmem

end LookupStep

/-! ## What an answer says -/

namespace Resolution

def strategy? : Resolution → Option MatchStrategy
  | .resolved _ strategy => some strategy
  | .ambiguous _ strategy _ => some strategy
  | .unresolved => none

def candidates : Resolution → List ComponentId
  | .resolved target _ => [target]
  | .ambiguous _ _ candidates => candidates
  | .unresolved => []

/-- The answer names exactly the components that are meant, in ascending order, and leads to
    the least of them. -/
structure Answers (answer : Resolution) (strategy : MatchStrategy)
    (meant : ComponentId → Prop) : Prop where
  strategy? : answer.strategy? = some strategy
  mem_candidates : ∀ id, id ∈ answer.candidates ↔ meant id
  ascending : answer.candidates.Pairwise (· < ·)
  least : ∃ target, answer.target? = some target ∧ meant target ∧ ∀ id, meant id → target ≤ id
  ambiguous_iff : answer.isAmbiguous = true ↔ ∃ a b, meant a ∧ meant b ∧ a ≠ b

/-- The first of ascending candidates is the least, and a second one makes the answer
    ambiguous. -/
theorem answers_pick {strategy : MatchStrategy} {ids : List ComponentId} (hne : ids ≠ [])
    (hascending : ids.Pairwise (· < ·)) : (pick strategy ids).Answers strategy (· ∈ ids) := by
  match ids with
  | [only] =>
    refine ⟨rfl, fun _ => Iff.rfl, List.pairwise_singleton _ _, ⟨only, rfl, by simp, by simp⟩, ?_⟩
    simp [pick, isAmbiguous]
  | first :: second :: others =>
    have hleast : ∀ id ∈ second :: others, first < id := (List.pairwise_cons.1 hascending).1
    refine ⟨rfl, fun _ => Iff.rfl, hascending, ⟨first, rfl, by simp, ?_⟩, ?_⟩
    · intro id hid
      rcases List.mem_cons.1 hid with rfl | hid
      · exact le_refl id
      · exact le_of_lt (hleast id hid)
    · refine ⟨fun _ => ⟨first, second, by simp, by simp, ?_⟩, fun _ => rfl⟩
      exact ne_of_lt (hleast second List.mem_cons_self)

/-! ## Shared prefixes -/

theorem sharedLength_le (p q : List String) : sharedLength p q ≤ min p.length q.length := by
  fun_induction sharedLength p q with
  | case1 a p q ih => simpa [Nat.succ_min_succ] using ih
  | case2 => exact Nat.zero_le _
  | case3 => exact Nat.zero_le _

/-- Two lists share all of the shorter one exactly if it is the beginning of the other. -/
theorem sharedLength_eq_min_iff {p q : List String} :
    sharedLength p q = min p.length q.length ↔ p <+: q ∨ q <+: p := by
  fun_induction sharedLength p q with
  | case1 a p q ih => simpa [Nat.succ_min_succ, List.cons_prefix_cons] using ih
  | case2 a p b q hne =>
    simp [Nat.succ_min_succ, List.cons_prefix_cons, hne, Ne.symm hne]
  | case3 p q hnil =>
    cases p with
    | nil => simp
    | cons a p =>
      cases q with
      | nil => simp
      | cons b q => exact (hnil a p b q rfl rfl).elim

theorem prefixLength?_eq (wanted path : List String) :
    prefixLength? wanted path =
      if Overlap wanted path then some (min wanted.length path.length) else none := by
  have hle := sharedLength_le wanted path
  have hiff := @sharedLength_eq_min_iff wanted path
  have hmin : Nat.min wanted.length path.length = min wanted.length path.length := rfl
  have hpos : (wanted ≠ [] ∧ path ≠ []) ↔ 0 < min wanted.length path.length := by
    rw [lt_min_iff, List.length_pos_iff, List.length_pos_iff]
  simp only [prefixLength?, hmin]
  by_cases hover : Overlap wanted path
  · have hshared := hiff.2 hover.2.2
    have hsome := hpos.1 ⟨hover.1, hover.2.1⟩
    rw [if_pos hover, if_neg (by omega), hshared]
  · rw [if_neg hover, if_pos]
    by_contra hnot
    push Not at hnot
    have hshared : sharedLength wanted path = min wanted.length path.length := by omega
    obtain ⟨hwanted, hpath⟩ := hpos.2 (by omega)
    exact hover ⟨hwanted, hpath, hiff.1 hshared⟩

theorem foldl_max_le_iff {l : List Nat} {start bound : Nat} :
    l.foldl Nat.max start ≤ bound ↔ start ≤ bound ∧ ∀ x ∈ l, x ≤ bound := by
  induction l generalizing start with
  | nil => simp
  | cons x l ih =>
    rw [List.foldl_cons, ih, List.forall_mem_cons, ← and_assoc]
    exact and_congr_left' max_le_iff

variable {α : Type} {components : List (Component α)} {source : ComponentId}

/-- The components that overlap a reference, with how much they share. -/
theorem hits_eq (components : List (Component α)) (source : ComponentId) (wanted : List String) :
    (((components.map Address.ofComponent).filter (·.id ≠ source)).filterMap fun a =>
        (prefixLength? wanted a.path).map fun shared => (shared, a.id)) =
      (components.filter (LookupStep.OverlapsOther source wanted ·)).map fun c =>
        (min wanted.length c.pathSegments.length, c.id) := by
  induction components with
  | nil => rfl
  | cons c components ih =>
    simp only [List.map_cons, List.filter_cons, LookupStep.OverlapsOther,
      Address.id_ofComponent] at ih ⊢
    by_cases hsource : c.id = source
    · simpa [hsource] using ih
    · by_cases hover : Overlap wanted c.pathSegments <;>
        simpa [hsource, hover, prefixLength?_eq] using ih

/-- A hit has the best length if and only if no other hit has a greater one. -/
theorem best_le_iff {wanted : List String} {k : Nat} :
    ((components.filter (LookupStep.OverlapsOther source wanted ·)).map
        fun c => min wanted.length c.pathSegments.length).foldl Nat.max 0 ≤ k ↔
      ∀ c ∈ components, LookupStep.OverlapsOther source wanted c →
        min wanted.length c.pathSegments.length ≤ k := by
  simp only [foldl_max_le_iff, List.forall_mem_map, List.mem_filter, decide_eq_true_iff, and_imp,
    Nat.zero_le, true_and]

theorem byPrefix_eq (components : List (Component α)) (source : ComponentId) (n : String) :
    byPrefix (components.map Address.ofComponent) source (segments n) =
      LookupStep.sharedPrefix.candidates components source n := by
  unfold byPrefix
  rw [hits_eq]
  simp only [List.map_map, List.filter_map, List.filter_filter]
  apply congrArg
  apply List.filter_congr
  intro c hc
  simp only [Function.comp_def, LookupStep.Matches]
  by_cases hover : LookupStep.OverlapsOther source (segments n) c
  · have hself := best_le_iff.1 (le_refl _) c hc hover
    simp only [hover, decide_true, Bool.and_true, decide_eq_decide, true_and, ← best_le_iff]
    exact ⟨ge_of_eq, hself.antisymm⟩
  · simp [hover]

/-! ## The answer to a reference -/

/-- The candidates of each step are the components that match it. -/
theorem steps_eq (components : List (Component α)) (source : ComponentId) (n : String) :
    steps (components.map Address.ofComponent) source n =
      LookupStep.all.map fun step => (step.strategy, step.candidates components source n) := by
  have hfilter : ∀ (p : Address → Bool) (step : LookupStep),
      (∀ c, p (Address.ofComponent c) = true ↔ step.Matches components source n c) →
      ((components.map Address.ofComponent).filter p).map (·.id) =
        step.candidates components source n := by
    intro p step hstep
    rw [List.filter_map, List.map_map]
    apply congrArg
    apply List.filter_congr
    intro c _
    rw [Function.comp_apply, Bool.eq_iff_iff, hstep, decide_eq_true_iff]
  simp only [steps, LookupStep.all, List.map_cons, List.map_nil, byPrefix_eq]
  rw [hfilter _ .path, hfilter _ .pathWithoutExtension, hfilter _ .name,
    hfilter _ .nameOfLastSegment]
  · rfl
  all_goals
    intro c
    simp only [Bool.and_eq_true, decide_eq_true_iff, List.contains_iff_mem]
    simp [LookupStep.Matches, and_comm]

theorem resolve_of_isFirst {reference : String} {step : LookupStep}
    (hne : normalize reference ≠ "")
    (hfirst : step.IsFirst components source (normalize reference)) :
    resolve (components.map Address.ofComponent) source reference =
      pick step.strategy (step.candidates components source (normalize reference)) := by
  have hempty : (normalize reference).isEmpty = false := by simpa using hne
  simp only [resolve, hempty, Bool.false_eq_true, if_false, steps_eq, List.find?_map,
    Function.comp_def, LookupStep.find?_of_isFirst hfirst, Option.map_some]

theorem resolve_of_no_match {reference : String}
    (hnone : ∀ step : LookupStep, ∀ c ∈ components,
      ¬ step.Matches components source (normalize reference) c) :
    resolve (components.map Address.ofComponent) source reference = .unresolved := by
  have hfind : LookupStep.all.find? (fun step =>
      !(step.candidates components source (normalize reference)).isEmpty) = none := by
    rw [List.find?_eq_none]
    intro step _
    rw [Bool.not_eq_true', Bool.not_eq_false, List.isEmpty_iff, LookupStep.candidates_eq_nil_iff]
    exact hnone step
  simp only [resolve, steps_eq, List.find?_map, Function.comp_def, hfind, Option.map_none, ite_self]

/-- Among ascending components, the first step that any of them matches gives the answer. -/
theorem answers_of_isFirst (hascending : components.Pairwise (·.id < ·.id)) {reference : String}
    {step : LookupStep} (hne : normalize reference ≠ "")
    (hfirst : step.IsFirst components source (normalize reference)) :
    (resolve (components.map Address.ofComponent) source reference).Answers step.strategy
      fun id => ∃ c ∈ components, c.id = id ∧
        step.Matches components source (normalize reference) c := by
  rw [resolve_of_isFirst hne hfirst]
  simp only [← LookupStep.mem_candidates]
  refine answers_pick ?_ (LookupStep.pairwise_candidates hascending)
  rw [Ne, LookupStep.candidates_eq_nil_iff]
  push Not
  exact hfirst.1

/-- Among components in ascending order of their ids, a reference without text means nothing.
    Any other reference means the components that match it at the first step that some
    component matches; if there is no such step, it means nothing either. -/
theorem resolve_by_first_match (hascending : components.Pairwise (·.id < ·.id))
    (source : ComponentId) (reference : String) :
    let n := normalize reference
    let answer := resolve (components.map Address.ofComponent) source reference
    (n = "" → answer = .unresolved) ∧
    (n ≠ "" → ∀ step : LookupStep, step.IsFirst components source n →
      answer.Answers step.strategy fun id =>
        ∃ c ∈ components, c.id = id ∧ step.Matches components source n c) ∧
    (n ≠ "" → (∀ step : LookupStep, ∀ c ∈ components, ¬ step.Matches components source n c) →
      answer = .unresolved) := by
  intro n answer
  refine ⟨?_, fun hne step hfirst => answers_of_isFirst hascending hne hfirst,
    fun _ hnone => resolve_of_no_match hnone⟩
  intro hempty
  have hempty' : (normalize reference).isEmpty = true := by simpa using hempty
  simp only [answer, resolve, hempty', if_true]

/-- Three components whose paths start alike. -/
def siblings : List (Component Rat) :=
  let component (id name path : String) : Component Rat :=
    .ofRecord ⟨id, name, path, 1, .empty, .empty, [], false, false⟩
  [component "billing" "Billing" "app/billing.rs", component "orders" "Orders" "app/orders.rs",
   component "users" "app.orders" "app/users/store.rs"]

theorem resolve_by_first_match_siblings :
    siblings.Pairwise (·.id < ·.id) ∧ normalize "./App" ≠ "" ∧
    LookupStep.sharedPrefix.IsFirst siblings "users" (normalize "./App") ∧
    (resolve (siblings.map Address.ofComponent) "users" "./App").Answers .commonPrefix fun id =>
      ∃ c ∈ siblings, c.id = id ∧
        LookupStep.sharedPrefix.Matches siblings "users" (normalize "./App") c := by
  have hascending : siblings.Pairwise (·.id < ·.id) := by decide
  have hne : normalize "./App" ≠ "" := by decide +kernel
  have hfirst : LookupStep.sharedPrefix.IsFirst siblings "users" (normalize "./App") := by
    unfold LookupStep.IsFirst
    decide +kernel
  obtain ⟨_, hanswer, _⟩ := resolve_by_first_match hascending "users" "./App"
  exact ⟨hascending, hne, hfirst, hanswer hne _ hfirst⟩

end Resolution

/-! ## Names with a dot -/

namespace GraphBuild

variable {α : Type} [Scalar α] {records : List ComponentRecord}

theorem ascending_components {build : GraphBuild α} (hbuild : ofRecords records = .ok build) :
    build.graph.components.Pairwise (·.id < ·.id) :=
  List.pairwise_map.1 (wellFormed_of_ofRecords hbuild).ascending

/-- Display names are not empty. -/
theorem name_ne_empty {build : GraphBuild α} (hbuild : ofRecords records = .ok build)
    {c : Component α} (hc : c ∈ build.graph.components) : c.name ≠ "" := by
  obtain ⟨r, -, hnode, hfull⟩ := exists_record_of_mem_components hbuild hc
  rw [hnode]
  exact hfull ("display_name", r.displayName) (by simp [ComponentRecord.requiredFields])

/-- Suppose that no component of accepted records has the reference as its path, its path
    without extension or its id, and that some component has it as its name. The reference
    then means the components of that name if and only if, apart from the component that
    makes it, none has the reference without its extension as path, path without extension
    or id; otherwise it means those that do. -/
theorem resolve_by_name_iff {build : GraphBuild α} (hbuild : ofRecords records = .ok build)
    (source : ComponentId) (reference : String)
    (hpath : ∀ c ∈ build.graph.components, ¬ c.IsAddressedBy (normalize reference))
    (hname : ∃ c ∈ build.graph.components, c.name = normalize reference) :
    let answer := Resolution.resolve build.graph.addresses source reference
    let stripped := stripExtension (normalize reference)
    (answer.Answers .exactName
        (fun id => ∃ c ∈ build.graph.components, c.id = id ∧ c.name = normalize reference) ↔
      ∀ c ∈ build.graph.components, c.id ≠ source → ¬ c.IsAddressedBy stripped) ∧
    ((∃ c ∈ build.graph.components, c.id ≠ source ∧ c.IsAddressedBy stripped) →
      answer.Answers .exactPath fun id =>
        ∃ c ∈ build.graph.components, c.id = id ∧ c.id ≠ source ∧ c.IsAddressedBy stripped) := by
  intro answer stripped
  have hascending := ascending_components hbuild
  have hne : normalize reference ≠ "" := by
    obtain ⟨c, hc, heq⟩ := hname
    exact heq ▸ name_ne_empty hbuild hc
  have hother : (∃ c ∈ build.graph.components, c.id ≠ source ∧ c.IsAddressedBy stripped) →
      answer.Answers .exactPath fun id =>
        ∃ c ∈ build.graph.components, c.id = id ∧ c.id ≠ source ∧ c.IsAddressedBy stripped := by
    intro hsome
    have hfirst : LookupStep.pathWithoutExtension.IsFirst build.graph.components source
        (normalize reference) := by
      refine ⟨hsome, fun earlier hearlier => ?_⟩
      obtain rfl : earlier = .path := by simpa [LookupStep.all] using hearlier
      exact hpath
    exact Resolution.answers_of_isFirst hascending hne hfirst
  refine ⟨⟨?_, ?_⟩, hother⟩
  · intro hanswers c hc hsource haddressed
    have hstrategy := (hother ⟨c, hc, hsource, haddressed⟩).strategy?
    rw [hanswers.strategy?] at hstrategy
    cases hstrategy
  · intro hnone
    have hfirst : LookupStep.name.IsFirst build.graph.components source (normalize reference) := by
      refine ⟨hname, fun earlier hearlier => ?_⟩
      have hcases : earlier = .path ∨ earlier = .pathWithoutExtension := by
        simpa [LookupStep.all] using hearlier
      rcases hcases with rfl | rfl
      · exact hpath
      · intro c hc hmatches
        exact hnone c hc hmatches.1 hmatches.2
    exact Resolution.answers_of_isFirst hascending hne hfirst

/-- The name of one component is the id of another with something after a dot. -/
def dottedRecords : List ComponentRecord :=
  let record (id name path : String) : ComponentRecord :=
    ⟨id, name, path, 1, .empty, .empty, [], false, false⟩
  [record "app" "App" "src/app.rs", record "order" "Order" "src/order.rs",
   record "service" "order.service" "src/service.rs"]

theorem ofRecords_dottedRecords :
    ofRecords dottedRecords = .ok (ofSorted dottedRecords : GraphBuild Rat) :=
  ofRecords_of_ascending (by decide) (by decide)

/-- The component of the shorter id cannot mean itself by a reference without extension. -/
theorem resolve_by_name_iff_dottedRecords :
    ∃ build : GraphBuild Rat, ofRecords dottedRecords = .ok build ∧
      (∀ c ∈ build.graph.components, ¬ c.IsAddressedBy (normalize "order.service")) ∧
      (∃ c ∈ build.graph.components, c.name = normalize "order.service") ∧
      (Resolution.resolve build.graph.addresses "order" "order.service").Answers .exactName
        fun id => ∃ c ∈ build.graph.components, c.id = id ∧ c.name = normalize "order.service" := by
  have hpath : ∀ c ∈ (ofSorted dottedRecords : GraphBuild Rat).graph.components,
      ¬ c.IsAddressedBy (normalize "order.service") := by
    decide +kernel
  have hname : ∃ c ∈ (ofSorted dottedRecords : GraphBuild Rat).graph.components,
      c.name = normalize "order.service" := by
    decide +kernel
  refine ⟨_, ofRecords_dottedRecords, hpath, hname, ?_⟩
  apply (resolve_by_name_iff ofRecords_dottedRecords "order" "order.service" hpath hname).1.2
  decide +kernel

/-- To any other component, the reference means the component of the shorter id, although it
    is the name of a third one. -/
theorem stripped_path_precedes_name :
    ∃ build : GraphBuild Rat, ofRecords dottedRecords = .ok build ∧
      (∀ c ∈ build.graph.components, ¬ c.IsAddressedBy (normalize "order.service")) ∧
      (∃ c ∈ build.graph.components, c.name = normalize "order.service") ∧
      Resolution.resolve build.graph.addresses "app" "order.service" =
        .resolved "order" .exactPath := by
  refine ⟨_, ofRecords_dottedRecords, ?_, ?_, ?_⟩ <;> decide +kernel

end GraphBuild

end ArchAudit
