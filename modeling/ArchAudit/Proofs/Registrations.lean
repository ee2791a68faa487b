-- SUMMARY: A registry holds the last detector registered for each kind, in the order of kinds.
import ArchAudit.Proofs.StandardAnalysis
import Mathlib.Data.List.Sort

/-!
# Registrations

Detectors are registered one after another, starting from nothing or from the built-in
ones. What is left of such a history is the last detector of each kind, in the order of
kinds. Histories that agree on these therefore make the same registry.
-/

namespace ArchAudit

/-! ## The latest of each kind -/

section Latest

variable {δ κ : Type} [DecidableEq κ] {kind : δ → κ} {rank : κ → Nat}
  {history history' l l' : List δ}

/-- The last entry of a kind. -/
def latest? (kind : δ → κ) (history : List δ) (k : κ) : Option δ :=
  history.reverse.find? (kind · = k)

theorem latest?_concat (d : δ) (k : κ) :
    latest? kind (history ++ [d]) k = if kind d = k then some d else latest? kind history k := by
  rw [latest?, List.reverse_concat, List.find?_cons]
  by_cases hkind : kind d = k <;> simp [hkind, latest?]

/-- The list holds the last entry of each kind, in the order of kinds. -/
structure KeepsLatest (kind : δ → κ) (rank : κ → Nat) (history l : List δ) : Prop where
  ascending : l.Pairwise fun a b => rank (kind a) < rank (kind b)
  mem_iff : ∀ d, d ∈ l ↔ latest? kind history (kind d) = some d

namespace KeepsLatest

theorem nil : KeepsLatest kind rank [] [] :=
  ⟨.nil, by simp [latest?]⟩

/-- An entry that replaces the one of its kind. -/
theorem replace (hrank : Function.Injective rank) (h : KeepsLatest kind rank history l) (d : δ) :
    KeepsLatest kind rank (history ++ [d])
      ((l.filter (kind · ≠ kind d) ++ [d]).mergeSort fun a b => rank (kind a) ≤ rank (kind b)) := by
  constructor
  · have hdistinct : (l.filter (kind · ≠ kind d) ++ [d]).Pairwise
        fun a b => rank (kind a) ≠ rank (kind b) := by
      rw [List.pairwise_append]
      refine ⟨(h.ascending.imp Nat.ne_of_lt).filter _, List.pairwise_singleton _ d, ?_⟩
      intro a ha b hb heq
      obtain rfl := List.mem_singleton.1 hb
      exact of_decide_eq_true (List.mem_filter.1 ha).2 (hrank heq)
    have hperm := List.mergeSort_perm (l.filter (kind · ≠ kind d) ++ [d])
      fun a b => rank (kind a) ≤ rank (kind b)
    refine (List.pairwise_mergeSort ?_ ?_ _).imp₂ ?_ (hperm.symm.pairwise hdistinct Ne.symm)
    · intro a b c hab hbc
      exact decide_eq_true (Nat.le_trans (of_decide_eq_true hab) (of_decide_eq_true hbc))
    · intro a b
      simpa using Nat.le_total (rank (kind a)) (rank (kind b))
    · intro a b hle hne
      exact Nat.lt_of_le_of_ne (of_decide_eq_true hle) hne
  · intro e
    rw [List.mem_mergeSort, List.mem_append, List.mem_filter, List.mem_singleton, latest?_concat,
      h.mem_iff]
    by_cases hkind : kind d = kind e
    · simp [hkind, eq_comm]
    · have hne : e ≠ d := fun heq => hkind (heq ▸ rfl)
      simp [hkind, hne, Ne.symm hkind]

/-- The order and the earlier entries of a history do not matter. -/
theorem eq_of_latest_eq (h : KeepsLatest kind rank history l)
    (h' : KeepsLatest kind rank history' l')
    (hlatest : ∀ k, latest? kind history' k = latest? kind history k) : l' = l := by
  have : Std.Irrefl fun a b => rank (kind a) < rank (kind b) := ⟨fun _ => Nat.lt_irrefl _⟩
  have : Std.Antisymm fun a b => rank (kind a) < rank (kind b) :=
    ⟨fun _ _ hab hba => absurd hba (Nat.lt_asymm hab)⟩
  apply h'.ascending.eq_of_mem_iff h.ascending
  intro d
  rw [h'.mem_iff, h.mem_iff, hlatest]

end KeepsLatest

end Latest

/-! ## Histories -/

/-- The addition of a detector to a registry. -/
inductive Registration (α : Type) where
  | intent (detector : IntentDetector α)
  | style (detector : StyleDetector α)

namespace Registration

variable {α : Type}

def intent? : Registration α → Option (IntentDetector α)
  | .intent d => some d
  | .style _ => none

def style? : Registration α → Option (StyleDetector α)
  | .intent _ => none
  | .style d => some d

/-- The last detector that a history registers for an intent. -/
def lastIntent? (history : List (Registration α)) (kind : IntentKind) : Option (IntentDetector α) :=
  latest? IntentDetector.kind (history.filterMap intent?) kind

/-- The last detector that a history registers for a style. -/
def lastStyle? (history : List (Registration α)) (style : StyleKind) : Option (StyleDetector α) :=
  latest? StyleDetector.style (history.filterMap style?) style

section Last

variable (history : List (Registration α))

theorem lastIntent?_intent (d : IntentDetector α) (kind : IntentKind) :
    lastIntent? (history ++ [.intent d]) kind =
      if d.kind = kind then some d else lastIntent? history kind := by
  rw [lastIntent?, List.filterMap_append]
  exact latest?_concat d kind

theorem lastStyle?_intent (d : IntentDetector α) (style : StyleKind) :
    lastStyle? (history ++ [.intent d]) style = lastStyle? history style := by
  rw [lastStyle?, List.filterMap_append]
  exact congrArg (latest? _ · style) (List.append_nil _)

end Last

/-- The built-in detectors, one by one. -/
def standard [Scalar α] (config : Config α) (k : LayerClassifier) : List (Registration α) :=
  [.intent (.separation k config.intents.separationWeights),
   .intent (.encapsulation config.intents.hidingWeights),
   .intent (.inversion k config.intents.inversionWeights)]
    ++ (StyleTable.builtin.map (StyleDetector.ofTable config.styles)).map .style

end Registration

theorem IntentKind.rank_injective : Function.Injective IntentKind.rank := by
  intro a b h
  cases a <;> cases b <;> simp_all [rank]

theorem StyleKind.rank_injective : Function.Injective StyleKind.rank := by
  intro a b h
  cases a <;> cases b <;> simp_all [rank]

namespace Registry

variable {α : Type} {r r' : Registry α} {history history' : List (Registration α)}

def register (r : Registry α) : Registration α → Registry α
  | .intent d => r.withIntent d
  | .style d => r.withStyle d

/-- The registry holds what is left of a history. -/
structure Keeps (r : Registry α) (history : List (Registration α)) : Prop where
  intents : KeepsLatest IntentDetector.kind IntentKind.rank
    (history.filterMap Registration.intent?) r.intents
  styles : KeepsLatest StyleDetector.style StyleKind.rank
    (history.filterMap Registration.style?) r.styles

theorem keeps_empty : (empty : Registry α).Keeps [] :=
  ⟨.nil, .nil⟩

theorem Keeps.register (h : r.Keeps history) (x : Registration α) :
    (r.register x).Keeps (history ++ [x]) := by
  cases x with
  | intent d =>
    constructor
    · rw [List.filterMap_append]
      exact h.intents.replace IntentKind.rank_injective d
    · rw [List.filterMap_append, List.filterMap_cons_none rfl, List.filterMap_nil, List.append_nil]
      exact h.styles
  | style d =>
    constructor
    · rw [List.filterMap_append, List.filterMap_cons_none rfl, List.filterMap_nil, List.append_nil]
      exact h.intents
    · rw [List.filterMap_append]
      exact h.styles.replace StyleKind.rank_injective d

theorem Keeps.foldl_register (h : r.Keeps history) (steps : List (Registration α)) :
    (steps.foldl Registry.register r).Keeps (history ++ steps) := by
  induction steps generalizing r history with
  | nil => simpa using h
  | cons x steps ih =>
    rw [List.foldl_cons, List.append_cons]
    exact ih (h.register x)

theorem Keeps.eq_of_last_eq (h : r.Keeps history) (h' : r'.Keeps history')
    (hintents : ∀ kind,
      Registration.lastIntent? history' kind = Registration.lastIntent? history kind)
    (hstyles : ∀ style,
      Registration.lastStyle? history' style = Registration.lastStyle? history style) :
    r' = r := by
  have hi : r'.intents = r.intents := h.intents.eq_of_latest_eq h'.intents hintents
  have hs : r'.styles = r.styles := h.styles.eq_of_latest_eq h'.styles hstyles
  cases r
  cases r'
  exact congrArg₂ Registry.mk hi hs

variable [Scalar α]

/-- The built-in registry is made by registering its detectors. -/
theorem builtin_eq_foldl {config : Config α} {k : LayerClassifier} (h : config.classifier = .ok k) :
    builtin config = .ok ((Registration.standard config k).foldl register empty) := by
  rw [builtin, h, Registration.standard, List.foldl_append, List.foldl_map]
  rfl

/-- The registries from which registrations start, with the history that they have. -/
inductive Origin : Registry α → List (Registration α) → Prop
  | empty : Origin .empty []
  | builtin {config : Config α} {k : LayerClassifier} {r : Registry α}
      (hk : config.classifier = .ok k) (hr : Registry.builtin config = .ok r) :
      Origin r (Registration.standard config k)

theorem Origin.keeps (h : Origin r history) : r.Keeps history := by
  cases h with
  | empty => exact keeps_empty
  | builtin hk hr =>
    rw [builtin_eq_foldl hk] at hr
    cases hr
    exact keeps_empty.foldl_register _

open Registration (lastIntent? lastStyle?)

/-- However many detectors are registered, the kinds stay strictly ascending and the
    detector of each kind is the last one registered for it. Histories that register the
    same detectors last make the same registry. -/
theorem last_registration_counts {start : Registry α} {given : List (Registration α)}
    (hstart : Origin start given) (steps : List (Registration α)) :
    let r := steps.foldl register start
    r.intentKinds.Pairwise (·.rank < ·.rank) ∧ r.styleKinds.Pairwise (·.rank < ·.rank) ∧
    (∀ d, d ∈ r.intents ↔ lastIntent? (given ++ steps) d.kind = some d) ∧
    (∀ d, d ∈ r.styles ↔ lastStyle? (given ++ steps) d.style = some d) ∧
    ∀ start' given' steps', Origin start' given' →
      (∀ kind, lastIntent? (given' ++ steps') kind = lastIntent? (given ++ steps) kind) →
      (∀ style, lastStyle? (given' ++ steps') style = lastStyle? (given ++ steps) style) →
      steps'.foldl register start' = r := by
  intro r
  have hkeeps : r.Keeps (given ++ steps) := hstart.keeps.foldl_register steps
  refine ⟨List.pairwise_map.2 hkeeps.intents.ascending,
    List.pairwise_map.2 hkeeps.styles.ascending, hkeeps.intents.mem_iff, hkeeps.styles.mem_iff, ?_⟩
  intro start' given' steps' hstart' hintents hstyles
  exact hkeeps.eq_of_last_eq (hstart'.keeps.foldl_register steps') hintents hstyles

/-- A detector of information hiding that looks at nothing. -/
def blindDetector (cancels : Bool) : IntentDetector Float :=
  ⟨.informationHiding, fun _ => .insufficient .informationHiding, cancels⟩

/-- The built-in detector of information hiding is replaced, and so is what replaced it. -/
theorem last_registration_counts_blindDetector :
    ∃ k start, (Config.standard Float).classifier = .ok k ∧
      builtin (.standard Float) = .ok start ∧
      Origin start (Registration.standard (.standard Float) k) ∧
      let r := [.intent (blindDetector true), .intent (blindDetector false)].foldl register start
      r.intentKinds.Pairwise (·.rank < ·.rank) ∧
      blindDetector false ∈ r.intents ∧ blindDetector true ∉ r.intents ∧
      [.intent (blindDetector false)].foldl register start = r := by
  obtain ⟨k, hk⟩ := Config.classifier_of_validate Config.validate_standard
  have horigin := Origin.builtin hk (builtin_eq hk)
  obtain ⟨hascending, _, hintents, _, hsame⟩ := last_registration_counts horigin
    [.intent (blindDetector true), .intent (blindDetector false)]
  refine ⟨k, _, hk, builtin_eq hk, horigin, hascending, ?_, ?_, ?_⟩
  · rw [hintents, List.append_cons, Registration.lastIntent?_intent]
    simp [blindDetector]
  · rw [hintents, List.append_cons, Registration.lastIntent?_intent]
    simp [blindDetector]
  · apply hsame _ _ _ horigin
    · intro kind
      rw [List.append_cons _ _ [_], Registration.lastIntent?_intent,
        Registration.lastIntent?_intent, Registration.lastIntent?_intent]
      by_cases hkind : IntentKind.informationHiding = kind <;> simp [blindDetector, hkind]
    · intro style
      rw [List.append_cons _ _ [_], Registration.lastStyle?_intent, Registration.lastStyle?_intent,
        Registration.lastStyle?_intent]

end Registry

end ArchAudit
