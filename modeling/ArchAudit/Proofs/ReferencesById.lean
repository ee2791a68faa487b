-- SUMMARY: When the id of a component, used as a reference, leads to the component.
import ArchAudit.Proofs.Lookup
import ArchAudit.Proofs.PathSeparators

/-!
# References by id

References are normalized before they are looked up, and ids are looked up as they are
written. An id that normalization leaves alone therefore leads to its component, whoever
refers to it. An id with a backslash, with blanks around it or with a leading `./` does so
only if what it is normalized to happens to be a path of the component.
-/

namespace ArchAudit

/-! ## Texts that normalization leaves alone -/

namespace Text

theorem dropWhile_eq_self {p : Char → Bool} {cs : List Char} :
    cs.dropWhile p = cs ↔ ∀ c ∈ cs.head?, ¬ p c := by
  cases cs with
  | nil => simp
  | cons c cs =>
    constructor
    · rintro hdrop d hd hp
      cases hd
      rw [List.dropWhile_cons_of_pos hp] at hdrop
      have hle := (List.dropWhile_sublist p (l := cs)).length_le
      rw [hdrop, List.length_cons] at hle
      omega
    · intro hhead
      exact List.dropWhile_cons_of_neg (hhead c rfl)

theorem trimBoth_sublist (p : Char → Bool) (cs : List Char) : (trimBoth p cs).Sublist cs := by
  have hback := (List.dropWhile_sublist p (l := (cs.dropWhile p).reverse)).reverse
  rw [List.reverse_reverse] at hback
  exact hback.trans (List.dropWhile_sublist p)

/-- Nothing is trimmed if and only if neither end is of the class. -/
theorem trimBoth_eq_self {p : Char → Bool} {cs : List Char} :
    trimBoth p cs = cs ↔ (∀ c ∈ cs.head?, ¬ p c) ∧ ∀ c ∈ cs.getLast?, ¬ p c := by
  rw [← dropWhile_eq_self, ← List.head?_reverse, ← dropWhile_eq_self, trimBoth]
  constructor
  · intro htrim
    have hfront : cs.dropWhile p = cs := by
      apply (List.dropWhile_sublist p).eq_of_length_le
      have hle := (List.dropWhile_sublist p (l := (cs.dropWhile p).reverse)).length_le
      rw [← List.length_reverse, htrim, List.length_reverse] at hle
      exact hle
    rw [hfront, List.reverse_eq_iff] at htrim
    exact ⟨hfront, htrim⟩
  · rintro ⟨hfront, hback⟩
    rw [hfront, hback, List.reverse_reverse]

theorem forwardSlash_eq_self {c : Char} : forwardSlash c = c ↔ c ≠ '\\' := by
  rw [forwardSlash]
  split
  · simp_all
  · simp_all

end Text

namespace ReferenceText

/-- The text has no blank at either end, no backslash and no leading `./`. -/
structure IsPlain (text : String) : Prop where
  head : ∀ c ∈ text.toList.head?, ¬ Text.isBlank c
  last : ∀ c ∈ text.toList.getLast?, ¬ Text.isBlank c
  forward : ∀ c ∈ text.toList, c ≠ '\\'
  undotted : ¬ ['.', '/'] <+: text.toList

/-- The characters of a reference before a leading `./` is dropped. -/
def forwardChars (reference : String) : List Char :=
  (Text.trimBoth Text.isBlank reference.toList).map Text.forwardSlash

theorem length_forwardChars_le (reference : String) :
    (forwardChars reference).length ≤ reference.toList.length := by
  rw [forwardChars, List.length_map]
  exact (Text.trimBoth_sublist _ _).length_le

theorem normalize_of_dotted {reference : String} {cs : List Char}
    (h : forwardChars reference = '.' :: '/' :: cs) : (normalize reference).toList = cs := by
  have hchars : (Text.forwardSlashes (Text.trim reference)).toList = '.' :: '/' :: cs := by
    rw [Text.toList_forwardSlashes, Text.trim, String.toList_ofList]
    exact h
  rw [normalize, hchars]
  exact String.toList_ofList

theorem normalize_of_undotted {reference : String}
    (h : ¬ ['.', '/'] <+: forwardChars reference) :
    (normalize reference).toList = forwardChars reference := by
  have hchars : (Text.forwardSlashes (Text.trim reference)).toList = forwardChars reference := by
    rw [Text.toList_forwardSlashes, Text.trim, String.toList_ofList]
    rfl
  rw [normalize, hchars]
  split
  · rename_i cs hdotted
    exact absurd ⟨cs, hdotted.symm⟩ h
  · exact String.toList_ofList

theorem normalize_eq_self {text : String} : normalize text = text ↔ IsPlain text := by
  rw [← String.toList_inj]
  constructor
  · intro hnormal
    have hle := length_forwardChars_le text
    have hundotted : ¬ ['.', '/'] <+: forwardChars text := by
      rintro ⟨cs, hdotted⟩
      have hchars : forwardChars text = '.' :: '/' :: cs := hdotted.symm
      rw [← hnormal, normalize_of_dotted hchars, hchars] at hle
      simp only [List.length_cons] at hle
      omega
    rw [normalize_of_undotted hundotted] at hnormal
    have htrim : Text.trimBoth Text.isBlank text.toList = text.toList := by
      apply (Text.trimBoth_sublist _ _).eq_of_length_le
      rw [← hnormal, forwardChars, List.length_map, ← forwardChars, hnormal]
    have hforward : text.toList.map Text.forwardSlash = text.toList.map id := by
      rwa [forwardChars, htrim, ← List.map_id text.toList, List.map_map] at hnormal
    obtain ⟨hhead, hlast⟩ := Text.trimBoth_eq_self.1 htrim
    refine ⟨hhead, hlast, ?_, hnormal ▸ hundotted⟩
    intro c hc
    exact Text.forwardSlash_eq_self.1 (List.map_inj_left.1 hforward c hc)
  · intro hplain
    have hchars : forwardChars text = text.toList := by
      have hforward : ∀ c ∈ text.toList, Text.forwardSlash c = id c := by
        intro c hc
        exact Text.forwardSlash_eq_self.2 (hplain.forward c hc)
      rw [forwardChars, Text.trimBoth_eq_self.2 ⟨hplain.head, hplain.last⟩,
        List.map_inj_left.2 hforward, List.map_id]
    rw [normalize_of_undotted (hchars ▸ hplain.undotted), hchars]

end ReferenceText

/-! ## Answers by path -/

open ReferenceText

section Answers

variable {α : Type} {components : List (Component α)} {source : ComponentId} {reference : String}

/-- Either some step is the first one to match, or no step matches anything. -/
theorem LookupStep.exists_isFirst_or_forall_not (components : List (Component α))
    (source : ComponentId) (n : String) :
    (∃ step : LookupStep, step.IsFirst components source n) ∨
      ∀ step : LookupStep, ∀ c ∈ components, ¬ step.Matches components source n c := by
  cases hfind : all.find? fun step => !(step.candidates components source n).isEmpty with
  | none =>
    right
    intro step
    have hmem : step ∈ all := by cases step <;> decide
    simpa [candidates_eq_nil_iff] using List.find?_eq_none.1 hfind step hmem
  | some step =>
    left
    obtain ⟨hsome, before, after, hall, hbefore⟩ := List.find?_eq_some_iff_append.1 hfind
    refine ⟨step, by simpa [candidates_eq_nil_iff] using hsome, ?_⟩
    intro earlier hearlier
    have hmem : earlier ∈ before := by
      rw [hall, List.takeWhile_append] at hearlier
      split at hearlier
      · simpa using hearlier
      · exact (List.takeWhile_sublist _).mem hearlier
    simpa [candidates_eq_nil_iff] using hbefore earlier hmem

namespace Resolution

/-- The answer is a match by path, and the component is one of its candidates. -/
def FindsByPath (answer : Resolution) (id : ComponentId) : Prop :=
  answer.strategy? = some .exactPath ∧ id ∈ answer.candidates

instance (answer : Resolution) (id : ComponentId) : Decidable (answer.FindsByPath id) :=
  inferInstanceAs (Decidable (_ ∧ _))

theorem not_findsByPath_unresolved (id : ComponentId) : ¬ unresolved.FindsByPath id := by
  rintro ⟨hstrategy, -⟩
  cases hstrategy

theorem resolve_of_empty {addresses : List Address} (h : normalize reference = "") :
    resolve addresses source reference = .unresolved := by
  have hempty : (normalize reference).isEmpty = true := by simpa using h
  simp only [resolve, hempty, if_true]

/-- A component is found by path if it matches the first step that any component matches, and
    that step is one of the two by path. -/
theorem findsByPath_iff_isFirst (hascending : components.Pairwise (·.id < ·.id))
    {c : Component α} (hc : c ∈ components) :
    (resolve (components.map Address.ofComponent) source reference).FindsByPath c.id ↔
      normalize reference ≠ "" ∧ ∃ step : LookupStep,
        step.IsFirst components source (normalize reference) ∧ step.strategy = .exactPath ∧
          step.Matches components source (normalize reference) c := by
  constructor
  · intro hfinds
    have hne : normalize reference ≠ "" := by
      intro hempty
      rw [resolve_of_empty hempty] at hfinds
      exact not_findsByPath_unresolved _ hfinds
    rcases LookupStep.exists_isFirst_or_forall_not components source (normalize reference)
      with ⟨step, hfirst⟩ | hnone
    · have hanswers := answers_of_isFirst hascending hne hfirst
      obtain ⟨hstrategy, hmem⟩ := hfinds
      obtain ⟨d, hd, hid, hmatches⟩ := (hanswers.mem_candidates c.id).1 hmem
      have hnodup : (components.map (·.id)).Nodup :=
        (List.pairwise_map.2 hascending).imp fun hlt => ne_of_lt hlt
      obtain rfl := List.inj_on_of_nodup_map hnodup hd hc hid
      rw [hanswers.strategy?] at hstrategy
      exact ⟨hne, step, hfirst, Option.some.inj hstrategy, hmatches⟩
    · rw [resolve_of_no_match hnone] at hfinds
      exact absurd hfinds (not_findsByPath_unresolved _)
  · rintro ⟨hne, step, hfirst, hstrategy, hmatches⟩
    have hanswers := answers_of_isFirst hascending hne hfirst
    exact ⟨hstrategy ▸ hanswers.strategy?, (hanswers.mem_candidates _).2 ⟨c, hc, rfl, hmatches⟩⟩

/-- The step without extension is taken only if no component has the reference as it is. -/
theorem findsByPath_iff (hascending : components.Pairwise (·.id < ·.id))
    {c : Component α} (hc : c ∈ components) (source : ComponentId) (reference : String) :
    (resolve (components.map Address.ofComponent) source reference).FindsByPath c.id ↔
      normalize reference ≠ "" ∧ (c.IsAddressedBy (normalize reference) ∨
        (∀ d ∈ components, ¬ d.IsAddressedBy (normalize reference)) ∧
          c.id ≠ source ∧ c.IsAddressedBy (stripExtension (normalize reference))) := by
  rw [findsByPath_iff_isFirst hascending hc]
  refine and_congr_right fun _ => ⟨?_, ?_⟩
  · rintro ⟨step, hfirst, hstrategy, hmatches⟩
    cases step with
    | path => exact .inl hmatches
    | pathWithoutExtension =>
      exact .inr ⟨hfirst.2 .path (by simp [LookupStep.all]), hmatches⟩
    | name => cases hstrategy
    | nameOfLastSegment => cases hstrategy
    | sharedPrefix => cases hstrategy
  · rintro (haddressed | ⟨hnone, hother⟩)
    · refine ⟨.path, ⟨⟨c, hc, haddressed⟩, ?_⟩, rfl, haddressed⟩
      simp [LookupStep.all]
    · refine ⟨.pathWithoutExtension, ⟨⟨c, hc, hother⟩, ?_⟩, rfl, hother⟩
      intro earlier hearlier
      obtain rfl : earlier = .path := by simpa [LookupStep.all] using hearlier
      exact hnone

end Resolution

end Answers

/-! ## Ids -/

namespace GraphBuild

variable {α : Type} [Scalar α] {records : List ComponentRecord}

/-- Ids are not empty. -/
theorem id_ne_empty {build : GraphBuild α} (hbuild : ofRecords records = .ok build)
    {c : Component α} (hc : c ∈ build.graph.components) : c.id ≠ "" := by
  obtain ⟨r, -, hnode, hfull⟩ := exists_record_of_mem_components hbuild hc
  rw [hnode]
  exact hfull ("component_id", r.componentId) (by simp [ComponentRecord.requiredFields])

/-- The id of a component of accepted records, used as a reference, is answered by a match by
    path that lists the component if and only if the normalized id is not empty and either is
    a path, a path without extension or the id of the component, or nobody has it as such and
    the component, which is not the one that refers, has it without its extension. A plain id
    is always answered so. -/
theorem resolve_id_iff {build : GraphBuild α} (hbuild : ofRecords records = .ok build)
    (source : ComponentId) {c : Component α} (hc : c ∈ build.graph.components) :
    let answer := Resolution.resolve build.graph.addresses source c.id
    let n := normalize c.id
    (answer.FindsByPath c.id ↔ n ≠ "" ∧ (c.IsAddressedBy n ∨
      (∀ d ∈ build.graph.components, ¬ d.IsAddressedBy n) ∧
        c.id ≠ source ∧ c.IsAddressedBy (stripExtension n))) ∧
    (IsPlain c.id → answer.FindsByPath c.id) := by
  intro answer n
  have hiff := Resolution.findsByPath_iff (ascending_components hbuild) hc source c.id
  refine ⟨hiff, fun hplain => hiff.2 ?_⟩
  rw [normalize_eq_self.2 hplain]
  exact ⟨id_ne_empty hbuild hc, .inl (.inr (.inr rfl))⟩

/-- Two ids are namespaces, and a third one is also the path of a component, without its
    extension. -/
def namespaceRecords : List ComponentRecord :=
  let record (id name path : String) : ComponentRecord :=
    ⟨id, name, path, 1, .empty, .empty, [], false, false⟩
  [record "App\\Billing" "BillingModule" "src/billing.php",
   record "App\\Orders" "OrdersModule" "src/orders.php",
   record "src/billing" "Ledger" "lib/ledger.php"]

theorem ofRecords_namespaceRecords :
    ofRecords namespaceRecords = .ok (ofSorted namespaceRecords : GraphBuild Rat) :=
  ofRecords_of_ascending (by decide) (by decide)

/-- The third id means two components, and its own is one of them. -/
theorem resolve_id_iff_namespaceRecords :
    ∃ build : GraphBuild Rat, ofRecords namespaceRecords = .ok build ∧
      ∃ c ∈ build.graph.components, IsPlain c.id ∧
        Resolution.resolve build.graph.addresses "App\\Orders" c.id =
          .ambiguous "App\\Billing" .exactPath ["App\\Billing", "src/billing"] ∧
        (Resolution.resolve build.graph.addresses "App\\Orders" c.id).FindsByPath c.id := by
  have hmem : ∃ c ∈ (ofSorted namespaceRecords : GraphBuild Rat).graph.components,
      c.id = "src/billing" := by
    decide +kernel
  obtain ⟨c, hc, hid⟩ := hmem
  have hplain : IsPlain c.id := normalize_eq_self.1 (hid ▸ by decide +kernel)
  refine ⟨_, ofRecords_namespaceRecords, c, hc, hplain, ?_,
    (resolve_id_iff ofRecords_namespaceRecords "App\\Orders" hc).2 hplain⟩
  rw [hid]
  decide +kernel

/-- A reference that is the id of a component, letter for letter, dangles: it is looked up with
    a forward slash, and the id has a backslash. -/
theorem backslash_id_dangles :
    ∃ build : GraphBuild Rat, ofRecords namespaceRecords = .ok build ∧
      ∃ c ∈ build.graph.components, c.id = "App\\Billing" ∧
        Resolution.resolve build.graph.addresses "App\\Orders" c.id = .unresolved ∧
        ¬ (Resolution.resolve build.graph.addresses "App\\Orders" c.id).FindsByPath c.id := by
  refine ⟨_, ofRecords_namespaceRecords, ?_⟩
  decide +kernel

end GraphBuild

end ArchAudit
