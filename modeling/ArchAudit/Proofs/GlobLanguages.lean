-- SUMMARY: Moving marks over a text finds exactly the texts of a pattern's language.
import ArchAudit.Glob.Match
import Mathlib.Data.List.Basic

/-!
# Languages of glob patterns

Each element of a pattern stands for a set of byte sequences, and a row for what its elements
stand for one after the other. Matching marks places of the text instead. A place is marked
after an element exactly if the bytes between it and some place marked before belong to the
element, so a row matches the texts of its language and no others.
-/

namespace ArchAudit.Glob

/-! ## Languages -/

mutual

/-- The bytes are some that the element stands for. -/
def Element.Accepts : Element → Bytes → Prop
  | .byte b, t => t = [b]
  | .anyByte, t => ∃ b, t = [b]
  | .anyBytes, _ => True
  | .optional b, t => t = [] ∨ t = [b]
  | .oneOf negated ranges, t => ∃ b, t = [b] ∧ (ranges.any (inRange b) != negated) = true
  | .choice rows, t => RowsAccept rows t

/-- The bytes are some that the elements stand for one after the other. -/
def RowAccepts : List Element → Bytes → Prop
  | [], t => t = []
  | e :: es, t => ∃ u v, t = u ++ v ∧ e.Accepts u ∧ RowAccepts es v

/-- The bytes are some that one of the rows stands for. -/
def RowsAccept : List (List Element) → Bytes → Prop
  | [], _ => False
  | r :: rs, t => RowAccepts r t ∨ RowsAccept rs t

end

/-! ## Marks -/

namespace Marks

/-- The place after the front part `u` of the text is marked. -/
def After (marks : Marks) (u : Bytes) : Prop :=
  marks[u.length]? = some true

/-- There is a mark for each place of the text. -/
def Fits (marks : Marks) (text : Bytes) : Prop :=
  marks.length = text.length + 1

variable {text u : Bytes} {marks : Marks}

theorem fits_start (text : Bytes) : (start text).Fits text := by
  simp [start, Fits]

theorem after_start : (start text).After u ↔ u = [] := by
  cases u with
  | nil => simp [start, After]
  | cons b u => simp [start, After, List.getElem?_replicate]

theorem fits_clear (h : marks.Fits text) : marks.clear.Fits text := by
  simpa [clear, Fits] using h

theorem not_after_clear : ¬ marks.clear.After u := by
  simp [clear, After, List.getElem?_replicate]

theorem fits_step (accepts : UInt8 → Bool) (h : marks.Fits text) :
    (marks.step accepts text).Fits text := by
  rw [Fits] at h
  simp [step, Fits, h]

/-- A mark moves over one byte of the right kind. -/
theorem after_step {accepts : UInt8 → Bool} (hu : u <+: text) :
    (marks.step accepts text).After u ↔ ∃ p b, u = p ++ [b] ∧ marks.After p ∧ accepts b = true := by
  rcases List.eq_nil_or_concat u with rfl | ⟨p, b, rfl⟩
  · simp [step, After]
  · have hb : text[p.length]? = some b := by
      obtain ⟨v, rfl⟩ := hu
      simp
    simp only [step, After, List.concat_eq_append, List.length_append, List.length_singleton,
      List.getElem?_cons_succ, List.getElem?_zipWith, hb]
    cases hmark : marks[p.length]? <;> simp_all [and_comm]

theorem getElem?_spread (marks : Marks) (i : Nat) :
    marks.spread[i]? = some true ↔ i < marks.length ∧ ∃ j ≤ i, marks[j]? = some true := by
  fun_induction spread marks generalizing i with
  | case1 => simp
  | case2 marks =>
    have hstart : ∃ j ≤ i, (true :: marks)[j]? = some true := ⟨0, Nat.zero_le i, rfl⟩
    cases i with
    | zero => simp
    | succ i => simp [hstart, List.getElem?_replicate]
  | case3 marks ih =>
    cases i with
    | zero => simp
    | succ i =>
      rw [List.getElem?_cons_succ, ih, List.length_cons, Nat.succ_lt_succ_iff]
      refine and_congr_right fun _ => ⟨?_, ?_⟩
      · rintro ⟨j, hj, hmark⟩
        exact ⟨j + 1, Nat.succ_le_succ hj, hmark⟩
      · rintro ⟨j, hj, hmark⟩
        cases j with
        | zero => simp at hmark
        | succ j => exact ⟨j, Nat.le_of_succ_le_succ hj, hmark⟩

theorem length_spread (marks : Marks) : marks.spread.length = marks.length := by
  fun_induction spread marks with
  | case1 => rfl
  | case2 marks => simp
  | case3 marks ih => simp [ih]

theorem fits_spread (h : marks.Fits text) : marks.spread.Fits text :=
  (length_spread marks).trans h

/-- A mark moves over any bytes. -/
theorem after_spread (h : marks.Fits text) (hu : u <+: text) :
    marks.spread.After u ↔ ∃ p q, u = p ++ q ∧ marks.After p := by
  have hlt : u.length < marks.length := by
    rw [h]
    exact Nat.lt_succ_of_le hu.length_le
  rw [After, getElem?_spread]
  constructor
  · rintro ⟨-, j, hj, hmark⟩
    refine ⟨u.take j, u.drop j, (List.take_append_drop j u).symm, ?_⟩
    rwa [After, List.length_take, Nat.min_eq_left hj]
  · rintro ⟨p, q, rfl, hmark⟩
    exact ⟨hlt, p.length, by simp, hmark⟩

theorem fits_union {marks' : Marks} (h : marks.Fits text) (h' : marks'.Fits text) :
    (marks.union marks').Fits text := by
  rw [Fits] at h h'
  simp [union, Fits, h, h']

theorem after_union {marks' : Marks} (h : marks.Fits text) (h' : marks'.Fits text) :
    (marks.union marks').After u ↔ marks.After u ∨ marks'.After u := by
  have hlength : marks.length = marks'.length := h.trans h'.symm
  simp only [union, After, List.getElem?_zipWith]
  by_cases hlt : u.length < marks.length
  · have hlt' : u.length < marks'.length := hlength ▸ hlt
    simp [hlt, hlt']
  · have hlt' : ¬ u.length < marks'.length := hlength ▸ hlt
    simp [hlt, hlt']

/-- Moving marks this way is reading some bytes of the language. -/
structure Moves (text : Bytes) (move : Marks → Marks) (language : Bytes → Prop) : Prop where
  fits : ∀ marks : Marks, marks.Fits text → (move marks).Fits text
  after : ∀ marks : Marks, marks.Fits text → ∀ u, u <+: text →
    ((move marks).After u ↔ ∃ p q, u = p ++ q ∧ marks.After p ∧ language q)

theorem moves_step (text : Bytes) (accepts : UInt8 → Bool) :
    Moves text (step accepts text) fun q => ∃ b, q = [b] ∧ accepts b = true where
  fits _ h := fits_step accepts h
  after marks _ u hu := by
    rw [after_step hu]
    constructor
    · rintro ⟨p, b, rfl, hmark, hb⟩
      exact ⟨p, [b], rfl, hmark, b, rfl, hb⟩
    · rintro ⟨p, _, rfl, hmark, b, rfl, hb⟩
      exact ⟨p, b, rfl, hmark, hb⟩

theorem moves_spread (text : Bytes) : Moves text spread fun _ => True where
  fits _ := fits_spread
  after marks h u hu := by
    rw [after_spread h hu]
    simp

theorem moves_id (text : Bytes) : Moves text id (· = []) where
  fits _ h := h
  after marks _ u _ := by
    constructor
    · intro hmark
      exact ⟨u, [], by simp, hmark, rfl⟩
    · rintro ⟨p, _, rfl, hmark, rfl⟩
      simpa using hmark

theorem moves_clear (text : Bytes) : Moves text clear fun _ => False where
  fits _ := fits_clear
  after marks _ u _ := by simp [not_after_clear]

variable {move move' : Marks → Marks} {language language' : Bytes → Prop}

theorem Moves.congr (h : Moves text move language) (hiff : ∀ q, language q ↔ language' q) :
    Moves text move language' where
  fits := h.fits
  after marks hmarks u hu := by simp only [h.after marks hmarks u hu, hiff]

theorem Moves.union (h : Moves text move language) (h' : Moves text move' language') :
    Moves text (fun marks => (move marks).union (move' marks)) fun q =>
      language q ∨ language' q where
  fits marks hmarks := fits_union (h.fits marks hmarks) (h'.fits marks hmarks)
  after marks hmarks u hu := by
    rw [after_union (h.fits marks hmarks) (h'.fits marks hmarks), h.after marks hmarks u hu,
      h'.after marks hmarks u hu]
    simp only [and_or_left, exists_or]

/-- One move after the other reads the bytes of both languages in turn. -/
theorem Moves.comp (h : Moves text move language) (h' : Moves text move' language') :
    Moves text (fun marks => move' (move marks)) fun q =>
      ∃ v w, q = v ++ w ∧ language v ∧ language' w where
  fits marks hmarks := h'.fits _ (h.fits marks hmarks)
  after marks hmarks u hu := by
    rw [h'.after _ (h.fits marks hmarks) u hu]
    constructor
    · rintro ⟨r, w, rfl, hmark, hw⟩
      have hr : r <+: text := (List.prefix_append r w).trans hu
      obtain ⟨p, v, rfl, hmark, hv⟩ := (h.after marks hmarks r hr).1 hmark
      exact ⟨p, v ++ w, by simp, hmark, v, w, rfl, hv, hw⟩
    · rintro ⟨p, _, rfl, hmark, v, w, rfl, hv, hw⟩
      rw [← List.append_assoc] at hu ⊢
      have hr : p ++ v <+: text := (List.prefix_append (p ++ v) w).trans hu
      exact ⟨p ++ v, w, rfl, (h.after marks hmarks _ hr).2 ⟨p, v, rfl, hmark, hv⟩, hw⟩

end Marks

/-! ## Elements -/

open Marks

mutual

/-- An element moves marks over the bytes that it stands for. -/
theorem Element.moves_advance (text : Bytes) :
    ∀ e : Element, Moves text (e.advance text ·) e.Accepts
  | .byte b => (moves_step text (· = b)).congr fun q => by simp [Element.Accepts]
  | .anyByte => (moves_step text fun _ => true).congr fun q => by simp [Element.Accepts]
  | .anyBytes => (moves_spread text).congr fun q => by simp [Element.Accepts]
  | .optional b =>
    ((moves_id text).union (moves_step text (· = b))).congr fun q => by simp [Element.Accepts]
  | .oneOf negated ranges =>
    (moves_step text fun b => ranges.any (inRange b) != negated).congr fun q => by
      simp [Element.Accepts]
  | .choice rows => (moves_advanceRows text rows).congr fun q => by simp [Element.Accepts]

theorem moves_advanceRow (text : Bytes) :
    ∀ row : List Element, Moves text (advanceRow text · row) (RowAccepts row)
  | [] => (moves_id text).congr fun q => by simp [RowAccepts]
  | e :: es =>
    ((e.moves_advance text).comp (moves_advanceRow text es)).congr fun q => by simp [RowAccepts]

theorem moves_advanceRows (text : Bytes) :
    ∀ rows : List (List Element), Moves text (advanceRows text · rows) (RowsAccept rows)
  | [] => (moves_clear text).congr fun q => by simp [RowsAccept]
  | r :: rs =>
    ((moves_advanceRow text r).union (moves_advanceRows text rs)).congr fun q => by
      simp [RowsAccept]

end

/-- A row matches the texts of its language. -/
theorem rowMatches_iff {row : List Element} {text : Bytes} :
    rowMatches row text = true ↔ RowAccepts row text := by
  have hmoves := moves_advanceRow text row
  have hfits := hmoves.fits _ (fits_start text)
  have hlast : (advanceRow text (Marks.start text) row).getLast? =
      (advanceRow text (Marks.start text) row)[text.length]? := by
    rw [List.getLast?_eq_getElem?, hfits, Nat.add_sub_cancel]
  rw [rowMatches, beq_iff_eq, hlast]
  change (advanceRow text (Marks.start text) row).After text ↔ _
  rw [hmoves.after _ (fits_start text) text (List.prefix_refl text)]
  simp [after_start]

end ArchAudit.Glob
