-- SUMMARY: The words of a text are its letters and digits, cut by a rule that looks at two neighbours.
import ArchAudit.Role.Tokens
import Mathlib.Data.List.SplitBy
import Mathlib.Data.List.TakeWhile
import Mathlib.Data.String.Basic

/-!
# Word boundaries

Words are found by scanning: a run of capitals, then a run of small letters and digits.
Whether a word starts at a letter can however be told from the letter or digit before it
alone: one starts if the two do not touch, or if it is the first capital after small ones.
The scan takes blocks off the text, and each block is one piece of the cut by that rule.
-/

namespace ArchAudit.Tokens

-- ---------------------------------------------------------------------------
-- Letters and digits
-- ---------------------------------------------------------------------------

theorem isCapital_eq_isUpper (c : Char) : isCapital c = c.isUpper := by
  have hupper : c.isUpper = decide ('A' ≤ c ∧ c ≤ 'Z') := rfl
  rw [hupper, Bool.decide_and]
  rfl

theorem isCapital_or_isSmall (c : Char) : (isCapital c || isSmall c) = c.isAlphanum := by
  have hsmall : isSmall c = (c.isLower || c.isDigit) := rfl
  have halpha : c.isAlphanum = (c.isUpper || c.isLower || c.isDigit) := rfl
  rw [isCapital_eq_isUpper, hsmall, halpha, Bool.or_assoc]

theorem not_isCapital_of_isSmall {c : Char} (h : isSmall c = true) : isCapital c = false := by
  simp only [isSmall, isCapital, Bool.or_eq_true, Bool.and_eq_true, decide_eq_true_iff,
    Bool.and_eq_false_iff, decide_eq_false_iff_not, Char.le_def, UInt32.le_iff_toNat_le] at *
  simp only [Char.reduceVal, UInt32.reduceToNat] at *
  omega

/-- The letters and digits of a text in order, with their places. -/
def lettersAndDigits (text : String) : List (Char × Nat) :=
  text.toList.zipIdx.filter (·.1.isAlphanum)

/-- A word goes on from one letter or digit to the next: they touch, and the second is not
    a capital unless the first is. -/
def goesOn (a b : Char × Nat) : Bool :=
  b.2 = a.2 + 1 && (!b.1.isUpper || a.1.isUpper)

theorem goesOn_eq_false {a b : Char × Nat} :
    goesOn a b = false ↔ b.2 ≠ a.2 + 1 ∨ b.1.isUpper ∧ ¬ a.1.isUpper := by
  simp only [goesOn, Bool.and_eq_false_iff, Bool.or_eq_false_iff, decide_eq_false_iff_not,
    Bool.not_eq_false', Bool.not_eq_true]

-- ---------------------------------------------------------------------------
-- Pieces
-- ---------------------------------------------------------------------------

/-- The letters and digits of characters from a place on, cut where no word goes on. -/
def pieces (cs : List Char) (place : Nat) : List (List (Char × Nat)) :=
  ((cs.zipIdx place).filter (·.1.isAlphanum)).splitBy goesOn

theorem isChain_zipIdx {R : Char → Char → Prop} {cs : List Char} (h : cs.IsChain R) (place : Nat) :
    (cs.zipIdx place).IsChain fun a b => b.2 = a.2 + 1 ∧ R a.1 b.1 := by
  induction h generalizing place with
  | nil => exact .nil
  | singleton c => exact .singleton _
  | cons_cons hR _ ih => exact .cons_cons ⟨rfl, hR⟩ (ih (place + 1))

/-- What follows a block of letters and digits does not go on from it, if a letter right
    after the block is a capital and the block does not end in one. -/
theorem not_goesOn_of_head? {a b : Char × Nat} {rest : List Char}
    (hrest : ∀ d ∈ rest.head?, d.isAlphanum → d.isUpper ∧ ¬ a.1.isUpper)
    (hb : b ∈ ((rest.zipIdx (a.2 + 1)).filter (·.1.isAlphanum)).head?) : goesOn a b = false := by
  cases rest with
  | nil => simp at hb
  | cons d rest =>
    rw [List.zipIdx_cons, List.filter_cons] at hb
    by_cases hd : d.isAlphanum
    · rw [if_pos hd] at hb
      obtain rfl : (d, a.2 + 1) = b := by simpa using hb
      obtain ⟨hupper, hlast⟩ := hrest d rfl hd
      exact goesOn_eq_false.2 (.inr ⟨hupper, hlast⟩)
    · rw [if_neg hd] at hb
      have hplace := List.le_snd_of_mem_zipIdx (List.mem_of_mem_filter (List.mem_of_mem_head? hb))
      exact goesOn_eq_false.2 (.inl (by omega))

/-- A block of letters and digits in which no capital follows a small one is a piece, if
    what comes after it starts a word. -/
theorem pieces_append {block rest : List Char} (place : Nat) (hne : block ≠ [])
    (hblock : ∀ c ∈ block, c.isAlphanum)
    (hchain : block.IsChain fun a b => b.isUpper → a.isUpper)
    (hrest : ∀ c ∈ block.getLast?, ∀ d ∈ rest.head?, d.isAlphanum → d.isUpper ∧ ¬ c.isUpper) :
    pieces (block ++ rest) place = block.zipIdx place :: pieces rest (place + block.length) := by
  have hall : (block.zipIdx place).filter (·.1.isAlphanum) = block.zipIdx place :=
     List.filter_eq_self.2 fun a ha => hblock a.1 (List.fst_mem_of_mem_zipIdx ha)
  have hpiece : (block.zipIdx place).splitBy goesOn = [block.zipIdx place] := by
    refine List.splitBy_of_isChain (by simpa using hne) ((isChain_zipIdx hchain place).imp ?_)
    rintro a b ⟨hplace, hupper⟩
    simp only [goesOn, hplace, decide_true, Bool.true_and, Bool.or_eq_true, Bool.not_eq_true']
    cases hb : b.1.isUpper with
    | true => exact .inr (hupper hb)
    | false => exact .inl rfl
  rw [pieces, List.zipIdx_append, List.filter_append, hall, List.splitBy_append, hpiece]
  · rfl
  · intro a ha b hb
    rw [List.getLast?_zipIdx] at ha
    obtain ⟨c, hc, rfl⟩ := Option.map_eq_some_iff.1 ha
    have hlast : place + block.length = place + block.length - 1 + 1 := by
      have := List.length_pos_iff.2 hne
      omega
    rw [hlast] at hb
    exact not_goesOn_of_head? (hrest c hc) hb

-- ---------------------------------------------------------------------------
-- Scanning
-- ---------------------------------------------------------------------------

theorem pieces_cons_of_not_isAlphanum {c : Char} (h : ¬ c.isAlphanum) (cs : List Char)
    (place : Nat) : pieces (c :: cs) place = pieces cs (place + 1) := by
  rw [pieces, List.zipIdx_cons, List.filter_cons, if_neg h, pieces]

theorem head?_dropWhile {p : Char → Bool} {cs : List Char} {d : Char}
    (h : d ∈ (cs.dropWhile p).head?) : p d = false := by
  have := List.head?_dropWhile_not p cs
  rwa [Option.mem_def.1 h] at this

/-- Capitals and the small ones after them are a piece, if the small ones do not go on and,
    where there are none, the capitals do not either. -/
theorem pieces_block {capitals smalls rest : List Char} (place : Nat)
    (hne : capitals ++ smalls ≠ []) (hcapitals : ∀ c ∈ capitals, isCapital c)
    (hsmalls : ∀ c ∈ smalls, isSmall c) (hrest : ∀ d ∈ rest.head?, isSmall d = false)
    (hnone : smalls = [] → ∀ d ∈ rest.head?, isCapital d = false) :
    pieces (capitals ++ smalls ++ rest) place =
      (capitals ++ smalls).zipIdx place :: pieces rest (place + (capitals ++ smalls).length) := by
  have hupper : ∀ c ∈ capitals, c.isUpper := fun c hc => isCapital_eq_isUpper c ▸ hcapitals c hc
  have hlower : ∀ c ∈ smalls, ¬ c.isUpper := by
    intro c hc
    rw [← isCapital_eq_isUpper, not_isCapital_of_isSmall (hsmalls c hc)]
    exact Bool.false_ne_true
  refine pieces_append place hne ?_ ?_ ?_
  · intro c hc
    rw [← isCapital_or_isSmall]
    rcases List.mem_append.1 hc with hc | hc
    · simp [hcapitals c hc]
    · simp [hsmalls c hc]
  · apply List.Pairwise.isChain
    refine List.pairwise_append.2 ⟨?_, ?_, fun a ha _ _ _ => hupper a ha⟩
    · exact List.pairwise_of_forall_mem_list fun a ha _ _ _ => hupper a ha
    · exact List.pairwise_of_forall_mem_list fun _ _ b hb h => absurd h (hlower b hb)
  · intro c hc d hd hword
    rw [← isCapital_or_isSmall, hrest d hd, Bool.or_false] at hword
    refine ⟨isCapital_eq_isUpper d ▸ hword, hlower c ?_⟩
    have hsome : smalls ≠ [] := by
      intro hempty
      rw [hnone hempty d hd] at hword
      exact Bool.false_ne_true hword
    rw [List.getLast?_append_of_ne_nil _ hsome] at hc
    exact List.mem_of_mem_getLast? hc

/-- Scanning finds the pieces, wherever the characters stand. -/
theorem words_eq_pieces (cs : List Char) (place : Nat) :
    words cs = (pieces cs place).map (·.map Prod.fst) := by
  fun_induction words cs generalizing place with
  | case1 => rfl
  | case2 c cs hc capitals rest ih =>
    have hsplit : c :: cs = capitals ++ rest.takeWhile isSmall ++ rest.dropWhile isSmall := by
      rw [List.append_assoc, List.takeWhile_append_dropWhile, List.cons_append,
        List.takeWhile_append_dropWhile]
    have hcapitals : ∀ d ∈ capitals, isCapital d := by
      intro d hd
      rcases List.mem_cons.1 hd with rfl | hd
      · exact hc
      · exact List.mem_takeWhile_imp hd
    rw [hsplit, pieces_block place (by simp [capitals]) hcapitals
      (fun d hd => List.mem_takeWhile_imp hd) (fun d hd => head?_dropWhile hd) ?_,
      List.map_cons, List.zipIdx_map_fst, ← ih]
    intro hnone d hd
    have hrest : rest.dropWhile isSmall = rest := by
      rw [← List.nil_append (rest.dropWhile _), ← hnone, List.takeWhile_append_dropWhile]
    rw [hrest] at hd
    exact head?_dropWhile hd
  | case3 c cs hc hsmall ih =>
    have hsplit : c :: cs = [] ++ c :: cs.takeWhile isSmall ++ cs.dropWhile isSmall := by
      rw [List.nil_append, List.cons_append, List.takeWhile_append_dropWhile]
    have hsmalls : ∀ d ∈ c :: cs.takeWhile isSmall, isSmall d := by
      intro d hd
      rcases List.mem_cons.1 hd with rfl | hd
      · exact hsmall
      · exact List.mem_takeWhile_imp hd
    rw [hsplit, pieces_block place (by simp) (by simp) hsmalls (fun d hd => head?_dropWhile hd)
      (by simp), List.map_cons, List.zipIdx_map_fst, ← ih, List.nil_append]
  | case4 c cs hc hsmall ih =>
    rw [pieces_cons_of_not_isAlphanum, ih (place + 1)]
    rw [← isCapital_or_isSmall]
    simp [hc, hsmall]

-- ---------------------------------------------------------------------------
-- Where pieces start
-- ---------------------------------------------------------------------------

/-- A piece starts behind an element if and only if the element and the next one are cut
    apart. -/
theorem exists_splitBy_eq_append {β : Type} {r : β → β → Bool} {l : List β} {i : Nat} {a b : β}
    (ha : l[i]? = some a) (hb : l[i + 1]? = some b) :
    (∃ before after, l.splitBy r = before ++ after ∧ after ≠ [] ∧ before.flatten.length = i + 1) ↔
      r a b = false := by
  have hlast : (l.take (i + 1)).getLast? = some a := by
    rw [List.getLast?_take, if_neg (Nat.succ_ne_zero i), Nat.add_sub_cancel, ha, Option.some_or]
  have hfirst : (l.drop (i + 1)).head? = some b := by rw [List.head?_drop, hb]
  constructor
  · rintro ⟨before, after, hsplit, hafter, hlength⟩
    have hl : l = before.flatten ++ after.flatten := by
      rw [← List.flatten_append, ← hsplit, List.flatten_splitBy]
    rw [hl, ← hlength, List.take_left] at hlast
    rw [hl, ← hlength, List.drop_left] at hfirst
    obtain ⟨front, x, rfl⟩ : ∃ front x, before = front ++ [x] := by
      rcases List.eq_nil_or_concat before with rfl | ⟨front, x, rfl⟩
      · simp at hlength
      · exact ⟨front, x, List.concat_eq_append⟩
    obtain ⟨y, back, rfl⟩ := List.exists_cons_of_ne_nil hafter
    have hchain := List.isChain_getLast_head_splitBy r l
    rw [hsplit, List.isChain_append] at hchain
    obtain ⟨hx, hy, hcut⟩ := hchain.2.2 x (by simp) y (by simp)
    rw [List.flatten_append, List.flatten_singleton, List.getLast?_append_of_ne_nil _ hx,
      List.getLast?_eq_some_getLast hx, Option.some.injEq] at hlast
    rw [List.flatten_cons, List.head?_append_of_ne_nil _ hy, List.head?_eq_some_head hy,
      Option.some.injEq] at hfirst
    rwa [hlast, hfirst] at hcut
  · intro hcut
    have hsplit : l.splitBy r = (l.take (i + 1)).splitBy r ++ (l.drop (i + 1)).splitBy r := by
      rw [← List.splitBy_append, List.take_append_drop]
      intro x hx y hy
      rw [hlast, Option.mem_some_iff] at hx
      rw [hfirst, Option.mem_some_iff] at hy
      rw [← hx, ← hy, hcut]
    refine ⟨_, _, hsplit, ?_, ?_⟩
    · rw [List.splitBy_ne_nil]
      rintro hempty
      simp [hempty] at hfirst
    · rw [List.flatten_splitBy, List.length_take]
      have := (List.getElem?_eq_some_iff.1 hb).1
      omega

/-- A word starts behind the given number of letters and digits. -/
def StartsAt (words : List String) (i : Nat) : Prop :=
  ∃ before after, words = before ++ after ∧ after ≠ [] ∧ (String.join before).length = i

/-- The word that a piece spells in small letters. -/
def spell (piece : List (Char × Nat)) : String :=
  String.ofList (piece.map (·.1.toLower))

theorem join_map_spell (l : List (List (Char × Nat))) :
    String.join (l.map spell) = spell l.flatten := by
  induction l with
  | nil => rfl
  | cons piece l ih =>
    rw [List.map_cons, String.join_cons, ih, List.flatten_cons, spell, spell, spell,
      ← String.ofList_append, List.map_append]

theorem startsAt_map_spell {l : List (List (Char × Nat))} {i : Nat} :
    StartsAt (l.map spell) i ↔
      ∃ before after, l = before ++ after ∧ after ≠ [] ∧ before.flatten.length = i := by
  have hlength (before : List (List (Char × Nat))) :
      (String.join (before.map spell)).length = before.flatten.length := by
    rw [join_map_spell, spell, String.length_ofList, List.length_map]
  constructor
  · rintro ⟨before, after, hwords, hafter, hi⟩
    obtain ⟨before, after, rfl, rfl, rfl⟩ := List.map_eq_append_iff.1 hwords
    exact ⟨before, after, rfl, by simpa using hafter, hlength before ▸ hi⟩
  · rintro ⟨before, after, rfl, hafter, hi⟩
    exact ⟨before.map spell, after.map spell, List.map_append, by simpa using hafter,
      hlength before ▸ hi⟩

theorem lowerWords_eq (text : String) : lowerWords text = (pieces text.toList 0).map spell := by
  rw [lowerWords, words_eq_pieces _ 0, List.map_map]
  refine List.map_congr_left fun piece _ => ?_
  simp [spell, Function.comp_def]

-- ---------------------------------------------------------------------------
-- Tokens
-- ---------------------------------------------------------------------------

theorem joinedPairs_eq_zipWith (ws : List String) :
    joinedPairs ws = List.zipWith (· ++ ·) ws ws.tail := by
  fun_induction joinedPairs ws with
  | case1 a b ws ih => rw [ih]; rfl
  | case2 ws h =>
    match ws, h with
    | [], _ => rfl
    | [_], _ => rfl
    | a :: b :: ws, h => exact absurd rfl (h a b ws)

/-- The words spell the letters and digits of the text in small letters. A word starts at
    the first of them, at each that does not touch the one before it, and at each capital
    that comes after one that is none. -/
structure IsWordsOf (words : List String) (text : String) : Prop where
  nonempty : ∀ w ∈ words, w ≠ ""
  joined : String.join words = String.ofList ((lettersAndDigits text).map (·.1.toLower))
  within : ∀ i, StartsAt words i → i < (lettersAndDigits text).length
  first : lettersAndDigits text ≠ [] → StartsAt words 0
  next : ∀ i a b, (lettersAndDigits text)[i]? = some a → (lettersAndDigits text)[i + 1]? = some b →
    (StartsAt words (i + 1) ↔ b.2 ≠ a.2 + 1 ∨ b.1.isUpper ∧ ¬ a.1.isUpper)

theorem isWordsOf_lowerWords (text : String) : IsWordsOf (lowerWords text) text := by
  have hflatten : (pieces text.toList 0).flatten = lettersAndDigits text := List.flatten_splitBy _ _
  have hne : ∀ piece ∈ pieces text.toList 0, piece ≠ [] := fun _ => List.ne_nil_of_mem_splitBy
  rw [lowerWords_eq]
  refine ⟨?_, ?_, ?_, ?_, ?_⟩
  · intro w hw
    obtain ⟨piece, hpiece, rfl⟩ := List.mem_map.1 hw
    simpa [spell] using hne piece hpiece
  · rw [join_map_spell, hflatten, spell]
  · intro i hi
    obtain ⟨before, after, hpieces, hafter, rfl⟩ := startsAt_map_spell.1 hi
    obtain ⟨piece, after, rfl⟩ := List.exists_cons_of_ne_nil hafter
    have hpiece : 0 < piece.length := List.length_pos_iff.2 (hne piece (by simp [hpieces]))
    rw [← hflatten, hpieces, List.flatten_append, List.flatten_cons, List.length_append,
      List.length_append]
    omega
  · intro hsome
    have hpieces : pieces text.toList 0 ≠ [] := by
      intro hempty
      rw [hempty] at hflatten
      exact hsome hflatten.symm
    exact startsAt_map_spell.2 ⟨[], _, rfl, hpieces, rfl⟩
  · intro i a b ha hb
    rw [startsAt_map_spell, pieces, ← lettersAndDigits, exists_splitBy_eq_append ha hb,
      goesOn_eq_false]

/-- The tokens of a text are its words, then each two consecutive ones joined. -/
theorem tokenize_cuts_at_boundaries (text : String) : ∃ words, IsWordsOf words text ∧
    tokenize text = words ++ List.zipWith (· ++ ·) words words.tail ∧
    (tokenize text).length = 2 * words.length - 1 := by
  refine ⟨lowerWords text, isWordsOf_lowerWords text, ?_, ?_⟩
  · rw [tokenize, joinedPairs_eq_zipWith]
  · rw [tokenize, joinedPairs_eq_zipWith, List.length_append, List.length_zipWith, List.length_tail]
    omega

end ArchAudit.Tokens
