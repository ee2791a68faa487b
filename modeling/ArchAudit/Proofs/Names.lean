-- SUMMARY: Membership laws of name sets, their extensionality, and look-up laws of name maps.
import ArchAudit.Data.Names
import Mathlib.Data.List.Sort
import Mathlib.Data.String.Basic

/-!
# Laws of name sets and name maps

A name set is determined by its members, whatever order the names arrived in.
Everything that is collected into one is therefore independent of the order of
collection. Of name maps only what look-ups find is said here.
-/

namespace ArchAudit

-- ---------------------------------------------------------------------------
-- Sets
-- ---------------------------------------------------------------------------

@[simp] theorem mem_insertName_iff {a x : String} {l : List String} :
    x ∈ insertName a l ↔ x = a ∨ x ∈ l := by
  refine ⟨mem_insertName, ?_⟩
  intro h
  fun_induction insertName a l with
  | case1 => simpa using h
  | case2 b l _ => simpa using h
  | case3 b l _ _ ih =>
    rcases h with rfl | h
    · exact List.mem_cons_of_mem _ (ih (.inl rfl))
    · rcases List.mem_cons.1 h with rfl | h
      · exact List.mem_cons_self
      · exact List.mem_cons_of_mem _ (ih (.inr h))
  | case4 b l hab hba =>
    rcases h with rfl | h
    · have : x = b := String.le_antisymm (String.not_lt.1 hba) (String.not_lt.1 hab)
      exact this ▸ List.mem_cons_self
    · exact h

namespace NameSet

@[simp] theorem toList_empty : (empty : NameSet).toList = [] := rfl

@[simp] theorem mem_insert {s : NameSet} {a x : String} :
    x ∈ (s.insert a).toList ↔ x = a ∨ x ∈ s.toList :=
  mem_insertName_iff

/-- Sets with the same members are equal. -/
theorem ext_mem {s t : NameSet} (h : ∀ x, x ∈ s.toList ↔ x ∈ t.toList) : s = t := by
  obtain ⟨l, hl⟩ := s
  obtain ⟨k, hk⟩ := t
  have : l = k := hl.eq_of_mem_iff hk h
  subst this
  rfl

theorem mem_foldl_insert {l : List String} {s : NameSet} {x : String} :
    x ∈ (l.foldl insert s).toList ↔ x ∈ l ∨ x ∈ s.toList := by
  induction l generalizing s with
  | nil => simp
  | cons a l ih =>
    rw [List.foldl_cons, ih, mem_insert, List.mem_cons]
    tauto

@[simp] theorem mem_ofList {l : List String} {x : String} :
    x ∈ (ofList l).toList ↔ x ∈ l := by
  simp [ofList, mem_foldl_insert]

@[simp] theorem mem_union {s t : NameSet} {x : String} :
    x ∈ (s.union t).toList ↔ x ∈ s.toList ∨ x ∈ t.toList := by
  rw [union, mem_foldl_insert, or_comm]

@[simp] theorem ofList_toList (s : NameSet) : ofList s.toList = s :=
  ext_mem fun _ => mem_ofList

end NameSet

@[simp] theorem mem_ascendingNames {l : List String} {x : String} :
    x ∈ ascendingNames l ↔ x ∈ l :=
  NameSet.mem_ofList

theorem nodup_ascendingNames (l : List String) : (ascendingNames l).Nodup :=
  (NameSet.ofList l).ascending.imp ne_of_lt

-- ---------------------------------------------------------------------------
-- Maps
-- ---------------------------------------------------------------------------

section Maps

variable {α : Type}

theorem lookup_cons_eq_ite (key : String) (e : String × α) (l : List (String × α)) :
    (e :: l).lookup key = if key = e.1 then some e.2 else l.lookup key := by
  obtain ⟨k, a⟩ := e
  by_cases h : key = k
  · simp [h]
  · have hk : (key == k) = false := by simpa using h
    simp [List.lookup_cons, hk, h]

theorem lookup_map_pair {f : String → α} {l : List String} {key : String} (h : key ∈ l) :
    (l.map fun x => (x, f x)).lookup key = some (f key) := by
  induction l with
  | nil => cases h
  | cons x l ih =>
    rw [List.map_cons, lookup_cons_eq_ite]
    by_cases hx : key = x
    · rw [if_pos hx, hx]
    · rw [if_neg hx]
      exact ih ((List.mem_cons.1 h).resolve_left hx)

/-- An entry above all others goes to the end. -/
theorem insertEntry_eq_append {e : String × α} {l : List (String × α)}
    (h : ∀ f ∈ l, f.1 < e.1) : insertEntry e l = l ++ [e] := by
  induction l with
  | nil => rfl
  | cons f l ih =>
    have hf : f.1 < e.1 := h f List.mem_cons_self
    have hne : ¬ e.1 < f.1 := fun hlt => String.lt_irrefl _ (String.lt_trans hf hlt)
    rw [insertEntry, if_neg hne, if_pos hf, ih fun g hg => h g (List.mem_cons_of_mem _ hg)]
    rfl

/-- Inserting an entry changes what is found under its key only. -/
theorem lookup_insertEntry (e : String × α) (l : List (String × α)) (key : String) :
    (insertEntry e l).lookup key = if key = e.1 then some e.2 else l.lookup key := by
  fun_induction insertEntry e l with
  | case1 => rw [lookup_cons_eq_ite, List.lookup_nil]
  | case2 f l _ => rw [lookup_cons_eq_ite]
  | case3 f l _ hfe ih =>
    rw [lookup_cons_eq_ite, lookup_cons_eq_ite, ih]
    by_cases hkey : key = f.1
    · have hne : f.1 ≠ e.1 := ne_of_lt hfe
      rw [if_pos hkey, if_pos hkey, if_neg (hkey ▸ hne)]
    · rw [if_neg hkey, if_neg hkey]
  | case4 f l hef hfe =>
    have heq : e.1 = f.1 := String.le_antisymm (String.not_lt.1 hfe) (String.not_lt.1 hef)
    rw [lookup_cons_eq_ite, lookup_cons_eq_ite, ← heq]
    by_cases hkey : key = e.1
    · rw [if_pos hkey, if_pos hkey]
    · rw [if_neg hkey, if_neg hkey, if_neg hkey]

namespace NameMap

theorem get?_insert (m : NameMap α) (key : String) (a : α) (k : String) :
    (m.insert key a).get? k = if k = key then some a else m.get? k :=
  lookup_insertEntry (key, a) m.entries k

@[simp] theorem get?_empty (key : String) : (empty : NameMap α).get? key = none := rfl

/-- The last entry of a list is not replaced. -/
theorem get?_ofList_concat (l : List (String × α)) (key : String) (a : α) :
    (ofList (l ++ [(key, a)])).get? key = some a := by
  rw [ofList, List.foldl_concat, get?_insert, if_pos rfl]

theorem contains_eq_isSome_get? (m : NameMap α) (key : String) :
    m.contains key = (m.get? key).isSome := by
  rw [contains, get?]
  induction m.entries with
  | nil => rfl
  | cons e l ih =>
    rw [List.any_cons, lookup_cons_eq_ite, ih]
    by_cases h : key = e.1
    · simp [h]
    · have hne : e.1 ≠ key := Ne.symm h
      simp [h, hne]

theorem keys_insert_subset (m : NameMap α) (key : String) (a : α) :
    (m.insert key a).keys ⊆ key :: m.keys := by
  intro k hk
  obtain ⟨entry, hentry, rfl⟩ := List.mem_map.1 hk
  rcases mem_insertEntry hentry with rfl | hentry
  · exact List.mem_cons_self
  · exact List.mem_cons_of_mem _ (List.mem_map_of_mem hentry)

theorem keys_foldl_insert_subset (l : List (String × α)) (m : NameMap α) :
    (l.foldl (fun m e => m.insert e.1 e.2) m).keys ⊆ l.map (·.1) ++ m.keys := by
  induction l generalizing m with
  | nil => exact List.Subset.refl _
  | cons e l ih =>
    intro k hk
    rcases List.mem_append.1 (ih _ hk) with hk | hk
    · exact List.mem_cons_of_mem _ (List.mem_append_left _ hk)
    · rcases List.mem_cons.1 (m.keys_insert_subset e.1 e.2 hk) with rfl | hk
      · exact List.mem_cons_self
      · exact List.mem_cons_of_mem _ (List.mem_append_right _ hk)

/-- The keys of a map are among those of the entries it was made from. -/
theorem keys_ofList_subset (l : List (String × α)) : (ofList l).keys ⊆ l.map (·.1) := by
  have h := keys_foldl_insert_subset l empty
  rwa [show (empty : NameMap α).keys = [] from rfl, List.append_nil] at h

theorem get?_ofList_eq_none {l : List (String × α)} {key : String} (h : key ∉ l.map (·.1)) :
    (ofList l).get? key = none := by
  rw [get?, List.lookup_eq_none_iff]
  intro e he
  rw [bne_iff_ne]
  rintro rfl
  exact h (keys_ofList_subset l (List.mem_map_of_mem he))

end NameMap

end Maps

end ArchAudit
