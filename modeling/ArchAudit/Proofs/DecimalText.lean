-- SUMMARY: Written numbers are well-formed, so that scanning them gives back their digits and exponent.
import ArchAudit.Proofs.JsonText

/-!
# Text of numbers

The text of a decimal is cut into the parts of a number: digits before and after
the point, and an exponent. The parts are well-formed unless zeros are appended to
a single zero, which does not happen to the fewest digits of a binary64 number.
-/

namespace ArchAudit

open Json

-- ---------------------------------------------------------------------------
-- Natural numbers
-- ---------------------------------------------------------------------------

namespace Json

/-- The parts of a natural number's text. -/
def NumberText.ofNat (n : Nat) : NumberText :=
  ⟨false, Nat.toDigits 10 n, [], none⟩

theorem NumberText.wellFormed_ofNat (n : Nat) : (NumberText.ofNat n).WellFormed where
  whole := isDigits_toDigits n
  noLeadingZero hzero := by
    by_cases hn : n = 0
    · subst hn
      rfl
    · exact absurd hzero (head?_toDigits hn)
  fraction := nofun
  power := nofun

theorem tokens_naturalText (n : Nat) {rest : List Char} (hrest : EndsNumber rest) :
    tokens (naturalText n ++ rest) = .number ⟨false, n, 0, true⟩ :: tokens rest := by
  have htokens := NumberText.tokens_chars (NumberText.wellFormed_ofNat n) hrest
  have hnumeral : (NumberText.ofNat n).numeral = ⟨false, n, 0, true⟩ := by
    simp [NumberText.numeral, NumberText.ofNat, NumberText.powerValue, digitsValue_toDigits]
  have hchars : (NumberText.ofNat n).chars = naturalText n := by
    simp [NumberText.chars, NumberText.unsignedChars, NumberText.fractionChars,
      NumberText.powerChars, NumberText.ofNat, naturalText]
  rw [← hchars, htokens, hnumeral]

end Json

-- ---------------------------------------------------------------------------
-- Decimals
-- ---------------------------------------------------------------------------

theorem dropZeros_ne_zero {fuel digits : Nat} {exponent : Int} (h : digits ≠ 0) :
    (dropZeros fuel digits exponent).1 ≠ 0 := by
  induction fuel generalizing digits exponent with
  | zero => exact h
  | succ fuel ih =>
    rw [dropZeros]
    split
    · exact ih (by omega)
    · exact h

theorem dropZeros_zero (fuel : Nat) (exponent : Int) :
    dropZeros fuel 0 exponent = (0, exponent) := by
  cases fuel with
  | zero => rfl
  | succ fuel => rw [dropZeros, if_neg (by simp)]

namespace Decimal

theorem isDigit_of_mem_zeros {n : Nat} {c : Char} (h : c ∈ zeros n) : isDigit c = true := by
  rw [List.eq_of_mem_replicate h]
  rfl

/-- The parts of positional notation that keeps a fraction. -/
def positionalParts (negative : Bool) (ds : List Char) (exponent : Int) : NumberText :=
  let point : Int := ds.length + exponent
  if 0 ≤ exponent then ⟨negative, ds ++ zeros exponent.toNat, ['0'], none⟩
  else if 0 < point then ⟨negative, ds.take point.toNat, ds.drop point.toNat, none⟩
  else ⟨negative, ['0'], zeros (-point).toNat ++ ds, none⟩

/-- The parts of notation with an exponent. -/
def scientificParts (negative : Bool) (ds : List Char) (exponent : Int) : NumberText :=
  let power : Int := ds.length + exponent - 1
  ⟨negative, ds.take 1, ds.drop 1, some (power < 0, Nat.toDigits 10 power.natAbs)⟩

/-- The parts of a decimal's text in interchange. -/
def parts (x : Decimal) : NumberText :=
  let (digits, exponent) := dropZeros 400 x.digits x.exponent
  let ds := Nat.toDigits 10 digits
  let point : Int := ds.length + exponent
  if digits = 0 ∨ (-4 ≤ point ∧ point ≤ 16) then positionalParts x.negative ds exponent
  else scientificParts x.negative ds exponent

section Parts

variable {negative : Bool} {ds : List Char} {exponent : Int}

theorem negative_positionalParts :
    (positionalParts negative ds exponent).negative = negative := by
  unfold positionalParts
  dsimp only
  split_ifs <;> rfl

theorem unsignedChars_positionalParts (hds : ds ≠ []) :
    (positionalParts negative ds exponent).unsignedChars = positional ds exponent true := by
  simp only [positionalParts, positional, if_true]
  split_ifs with hwhole hpoint
  · simp [NumberText.unsignedChars, NumberText.fractionChars, NumberText.powerChars]
  · have hdrop : ds.drop (ds.length + exponent).toNat ≠ [] := by
      rw [Ne, List.drop_eq_nil_iff]
      omega
    simp [NumberText.unsignedChars, NumberText.fractionChars, NumberText.powerChars, hdrop]
  · simp [NumberText.unsignedChars, NumberText.fractionChars, NumberText.powerChars, hds]

theorem unsignedChars_scientificParts :
    (scientificParts negative ds exponent).unsignedChars = scientific ds exponent := by
  simp [scientificParts, scientific, NumberText.unsignedChars, NumberText.fractionChars,
    NumberText.powerChars]

/-- Zeros are appended to a number, and a point set in it, only if it is not zero. -/
theorem wellFormed_positionalParts (hds : IsDigits ds)
    (hzero : ds.head? = some '0' → ds.length = 1 ∧ exponent ≤ 0) :
    (positionalParts negative ds exponent).WellFormed := by
  unfold positionalParts
  dsimp only
  split_ifs with hwhole hpoint
  · refine ⟨⟨?_, ?_⟩, ?_, ?_, nofun⟩
    · intro c hc
      rcases List.mem_append.1 hc with hc | hc
      · exact hds.digits c hc
      · exact isDigit_of_mem_zeros hc
    · exact List.append_ne_nil_of_left_ne_nil hds.nonempty _
    · intro hhead
      rw [List.head?_append_of_ne_nil _ hds.nonempty] at hhead
      obtain ⟨hlength, hexponent⟩ := hzero hhead
      have hnone : exponent = 0 := by omega
      simp [hnone, zeros, hlength]
    · intro c hc
      rw [List.mem_singleton.1 hc]
      rfl
  · have hpos : 0 < (ds.length + exponent).toNat := by omega
    refine ⟨⟨fun c hc => hds.digits c (List.mem_of_mem_take hc), ?_⟩, ?_,
      fun c hc => hds.digits c (List.mem_of_mem_drop hc), nofun⟩
    · simpa [hds.nonempty] using Nat.ne_of_gt hpos
    · intro hhead
      rw [List.head?_take, if_neg (Nat.ne_of_gt hpos)] at hhead
      obtain ⟨hlength, hexponent⟩ := hzero hhead
      omega
  · refine ⟨⟨?_, by simp⟩, fun _ => rfl, ?_, nofun⟩
    · intro c hc
      rw [List.mem_singleton.1 hc]
      rfl
    · intro c hc
      rcases List.mem_append.1 hc with hc | hc
      · exact isDigit_of_mem_zeros hc
      · exact hds.digits c hc

theorem wellFormed_scientificParts (hds : IsDigits ds) :
    (scientificParts negative ds exponent).WellFormed := by
  refine ⟨⟨fun c hc => hds.digits c (List.mem_of_mem_take hc), ?_⟩, fun _ => ?_,
    fun c hc => hds.digits c (List.mem_of_mem_drop hc), ?_⟩
  · simpa [scientificParts] using hds.nonempty
  · have hlength := List.length_pos_iff.2 hds.nonempty
    simp only [scientificParts, List.length_take]
    omega
  · rintro p hp
    cases hp
    exact isDigits_toDigits _

end Parts

theorem negative_parts (x : Decimal) : x.parts.negative = x.negative := by
  unfold parts
  dsimp only
  split
  · exact negative_positionalParts
  · rfl

theorem toList_text (x : Decimal) : (x.text .interchange).toList = x.parts.chars := by
  have hds := isDigits_toDigits (dropZeros 400 x.digits x.exponent).1
  rw [NumberText.chars, negative_parts]
  simp only [text, parts, Layout.interchange, String.toList_ofList, Bool.or_eq_true,
    Bool.and_eq_true, decide_eq_true_eq]
  split_ifs
  · rw [unsignedChars_positionalParts hds.nonempty]
  · rw [unsignedChars_scientificParts]
  · rw [unsignedChars_positionalParts hds.nonempty]
  · rw [unsignedChars_scientificParts]

theorem wellFormed_parts {x : Decimal} (h : x.digits = 0 → x.exponent ≤ 0) :
    x.parts.WellFormed := by
  have hds := isDigits_toDigits (dropZeros 400 x.digits x.exponent).1
  unfold parts
  dsimp only
  split
  · refine wellFormed_positionalParts hds fun hhead => ?_
    by_cases hzero : x.digits = 0
    · rw [hzero, dropZeros_zero, Nat.toDigits_zero]
      exact ⟨rfl, h hzero⟩
    · exact absurd hhead (head?_toDigits (dropZeros_ne_zero hzero))
  · exact wellFormed_scientificParts hds

end Decimal

-- ---------------------------------------------------------------------------
-- Binary64 numbers
-- ---------------------------------------------------------------------------

theorem powerOfTen_pos (k : Nat) : 0 < powerOfTen k :=
  Nat.pow_pos (by decide)

namespace Dyadic

variable {d : Dyadic} {tie : Tie}

theorem numerator_pos (h : d.significand ≠ 0) : 0 < d.numerator := by
  rw [numerator, Nat.shiftLeft_eq]
  exact Nat.mul_pos (Nat.pos_of_ne_zero h) (Nat.two_pow_pos _)

/-- A quotient below one is too far from zero to be rounded to it. -/
theorem floor_ne_zero_of_within {num den factor : Nat} (hnum : 0 < num) (hden : 0 < den)
    (hfactor : 1 < factor) (hlow : d.within num (num % den) factor = true) : num / den ≠ 0 := by
  intro hfloor
  have hlt : num < den := (Nat.div_eq_zero_iff.1 hfloor).resolve_left (Nat.ne_of_gt hden)
  have hgrows : num < num * factor := (Nat.lt_mul_iff_one_lt_right hnum).2 hfactor
  rw [within, Nat.mod_eq_of_lt hlt] at hlow
  split at hlow
  · exact absurd (of_decide_eq_true hlow) (Nat.not_le.2 hgrows)
  · exact absurd (of_decide_eq_true hlow) (Nat.lt_asymm hgrows)

theorem digits_candidate {magnitude : Int} {count : Nat} {x : Decimal}
    (h : d.significand ≠ 0) (hx : d.candidate tie magnitude count = some x) : x.digits ≠ 0 := by
  have hnum : 0 < d.numerator * powerOfTen (-(magnitude - count)).toNat :=
    Nat.mul_pos (numerator_pos h) (powerOfTen_pos _)
  have hden : 0 < d.denominator * powerOfTen (magnitude - count).toNat :=
    Nat.mul_pos d.denominator_pos (powerOfTen_pos _)
  have hfactor : 1 < (if d.significand = Binary64.hiddenBit ∧
      Binary64.leastExponent < d.exponent then 4 else 2) * d.significand := by
    split <;> omega
  unfold candidate at hx
  dsimp only at hx
  generalize d.numerator * powerOfTen (-(magnitude - count)).toNat = num at hx hnum
  generalize d.denominator * powerOfTen (magnitude - count).toNat = den at hx hden
  generalize (if d.significand = Binary64.hiddenBit ∧
    Binary64.leastExponent < d.exponent then 4 else 2) * d.significand = factor at hx hfactor
  have hfloor := floor_ne_zero_of_within (d := d) hnum hden hfactor
  split at hx
  next hboth =>
    cases hx
    dsimp only
    split
    · exact Nat.succ_ne_zero _
    · exact hfloor (Bool.and_eq_true_iff.1 hboth).1
  next =>
    split_ifs at hx with hlow hhigh
    · cases hx
      exact hfloor hlow
    · cases hx
      exact Nat.succ_ne_zero _

theorem digits_shortest (h : d.significand ≠ 0) : (d.shortest tie).digits ≠ 0 := by
  unfold shortest
  rw [if_neg h]
  dsimp only
  cases hfound : (List.range 17).findSome? fun k =>
      d.candidate tie (decimalMagnitude d.numerator d.denominator) (k + 1) with
  | none => exact Nat.ne_of_gt (numerator_pos h)
  | some x =>
    obtain ⟨k, _, hx⟩ := List.exists_of_findSome?_eq_some hfound
    exact digits_candidate h hx

/-- Zero is written without an exponent. -/
theorem exponent_shortest (d : Dyadic) (tie : Tie) (h : (d.shortest tie).digits = 0) :
    (d.shortest tie).exponent ≤ 0 := by
  by_cases hzero : d.significand = 0
  · have hshortest : d.shortest tie = ⟨d.negative, 0, 0⟩ := if_pos hzero
    exact Int.le_of_eq (congrArg Decimal.exponent hshortest)
  · exact absurd h (digits_shortest hzero)

end Dyadic

namespace Json

/-- The numeral that a number's text is read as; there is none if it is written as
    `null`. -/
def writtenNumeral? (x : Float) : Option Numeral :=
  match Binary64.ofFloat x with
  | .finite d => some (d.shortest .even).parts.numeral
  | .infinite _ => none
  | .notANumber => none

theorem tokens_floatText (x : Float) {rest : List Char} (hrest : EndsNumber rest) :
    tokens (floatText x ++ rest) =
      (writtenNumeral? x).elim .null .number :: tokens rest := by
  unfold floatText writtenNumeral? Layout.text
  cases Binary64.ofFloat x with
  | finite d =>
    have hparts := Decimal.wellFormed_parts (d.exponent_shortest .even)
    dsimp only
    rw [Decimal.toList_text]
    exact NumberText.tokens_chars hparts hrest
  | infinite negative => cases negative <;> exact tokens_nullText rest
  | notANumber => exact tokens_nullText rest

end Json

end ArchAudit
