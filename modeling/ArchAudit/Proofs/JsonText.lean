-- SUMMARY: The tokens of written JSON: scanning gives back what was written, whatever follows it.
import ArchAudit.Json.Token
import ArchAudit.Json.Value
import Mathlib.Data.List.Forall2

/-!
# Tokens of written text

Each lemma here says what the scanner makes of a written piece with any text after
it. Only a number needs something of that text: it must not go on like a number.
-/

namespace ArchAudit.Json

-- ---------------------------------------------------------------------------
-- One token
-- ---------------------------------------------------------------------------

theorem tokens_cons {c : Char} {cs rest : List Char} {t : Token} (hspace : isSpace c = false)
    (h : scanToken c cs = .ok (t, rest)) : tokens (c :: cs) = t :: tokens rest := by
  rw [tokens, if_neg (by simp [hspace])]
  split
  next s hs => rw [hs] at h; cases h
  next t' rest' hs => rw [hs] at h; cases h; rfl

theorem tokens_space {c : Char} {cs : List Char} (h : isSpace c = true) :
    tokens (c :: cs) = tokens cs := by
  rw [tokens, if_pos h]

theorem tokens_newLine (level : Nat) (rest : List Char) :
    tokens (newLine level ++ rest) = tokens rest := by
  have hblanks : ∀ n, tokens (List.replicate n ' ' ++ rest) = tokens rest := by
    intro n
    induction n with
    | zero => rfl
    | succ n ih => rw [List.replicate_succ, List.cons_append, tokens_space rfl, ih]
  rw [newLine, List.cons_append, tokens_space rfl, hblanks]

theorem tokens_nullText (rest : List Char) :
    tokens (nullText ++ rest) = .null :: tokens rest :=
  tokens_cons (c := 'n') rfl rfl

theorem tokens_boolText (b : Bool) (rest : List Char) :
    tokens (boolText b ++ rest) = .bool b :: tokens rest := by
  cases b with
  | false => exact tokens_cons (c := 'f') rfl rfl
  | true => exact tokens_cons (c := 't') rfl rfl

-- ---------------------------------------------------------------------------
-- Strings
-- ---------------------------------------------------------------------------

/-- The piece stands for the character, as itself or as a unit below the surrogates. -/
def Piece.Spells (p : Piece) (c : Char) : Prop :=
  p = .char c ∨ (p = .unit c.toNat ∧ c.toNat < 0x20)

theorem spell_cons {p : Piece} {c : Char} (h : p.Spells c) (ps : List Piece) :
    spell (p :: ps) = (spell ps).cons c := by
  rcases h with rfl | ⟨rfl, hlow⟩
  · rw [spell]
  · have hlead : isLeadSurrogate c.toNat = false := by
      simp only [isLeadSurrogate, Bool.and_eq_false_imp, decide_eq_true_eq]; omega
    have htrail : isTrailSurrogate c.toNat = false := by
      simp only [isTrailSurrogate, Bool.and_eq_false_imp, decide_eq_true_eq]; omega
    cases ps with
    | nil => simp [spell, hlead, htrail, Spelling.cons]
    | cons q ps =>
      cases q with
      | char d => simp [spell, hlead, htrail]
      | unit m => simp [spell, hlead, htrail]

theorem spell_of_spells {ps : List Piece} {cs : List Char}
    (h : List.Forall₂ Piece.Spells ps cs) : spell ps = .complete cs := by
  induction h with
  | nil => rfl
  | cons hp _ ih => rw [spell_cons hp, ih]; rfl

theorem hexDigit?_hexDigit {n : Nat} (h : n < 16) : hexDigit? (hexDigit n) = some n := by
  revert n
  decide

theorem fourHex?_hexDigit {n : Nat} (h : n < 0x20) :
    fourHex? '0' '0' (hexDigit (n / 16)) (hexDigit (n % 16)) = some n := by
  have hzero : hexDigit? '0' = some 0 := rfl
  simp only [fourHex?, hzero, hexDigit?_hexDigit (show n / 16 < 16 by omega),
    hexDigit?_hexDigit (show n % 16 < 16 by omega), Option.bind_eq_bind, Option.bind_some,
    Option.pure_def, Option.some.injEq]
  omega

/-- What stands in a string for a character: a letter after a backslash, a code point
    in hexadecimal digits, or the character itself. -/
theorem escapeChar_cases (c : Char) :
    (∃ e, e ≠ 'u' ∧ simpleEscape? e = some c ∧ escapeChar c = ['\\', e]) ∨
    (c.toNat < 0x20 ∧ escapeChar c =
      ['\\', 'u', '0', '0', hexDigit (c.toNat / 16), hexDigit (c.toNat % 16)]) ∨
    (c ≠ '"' ∧ c ≠ '\\' ∧ ¬ c.toNat < 0x20 ∧ escapeChar c = [c]) := by
  unfold escapeChar
  split_ifs with hquote hslash hb ht hn hf hr hlow
  · exact .inl ⟨_, by decide, by rw [hquote]; rfl, rfl⟩
  · exact .inl ⟨_, by decide, by rw [hslash]; rfl, rfl⟩
  · exact .inl ⟨_, by decide, by rw [hb]; rfl, rfl⟩
  · exact .inl ⟨_, by decide, by rw [ht]; rfl, rfl⟩
  · exact .inl ⟨_, by decide, by rw [hn]; rfl, rfl⟩
  · exact .inl ⟨_, by decide, by rw [hf]; rfl, rfl⟩
  · exact .inl ⟨_, by decide, by rw [hr]; rfl, rfl⟩
  · exact .inr (.inl ⟨hlow, rfl⟩)
  · exact .inr (.inr ⟨hquote, hslash, hlow, rfl⟩)

/-- Scanning an escaped character gives a piece that stands for it. -/
theorem scanString_escapeChar (c : Char) (rest : List Char) :
    ∃ p : Piece, p.Spells c ∧ scanString (escapeChar c ++ rest) = (scanString rest).cons p := by
  rcases escapeChar_cases c with ⟨e, hu, he, htext⟩ | ⟨hlow, htext⟩ | ⟨hquote, hslash, hlow, htext⟩
  · refine ⟨.char c, .inl rfl, ?_⟩
    rw [htext, List.cons_append, List.cons_append, List.nil_append,
      scanString.eq_5 e rest (fun _ _ _ _ _ h => absurd h hu) hu, he]
  · refine ⟨.unit c.toNat, .inr ⟨rfl, hlow⟩, ?_⟩
    simp only [htext, List.cons_append, List.nil_append, scanString, fourHex?_hexDigit hlow]
  · refine ⟨.char c, .inl rfl, ?_⟩
    rw [htext, List.singleton_append, scanString, if_neg hlow]
    · exact hquote
    · intro _ _ _ _ _ h
      exact absurd h hslash
    · intro _ h
      exact absurd h hslash
    · intro _ _ h
      exact absurd h hslash
    · intro h
      exact absurd h hslash

theorem scanString_closed (cs rest : List Char) :
    ∃ ps, List.Forall₂ Piece.Spells ps cs ∧
      scanString (cs.flatMap escapeChar ++ '"' :: rest) = .closed ps rest := by
  induction cs with
  | nil => exact ⟨[], .nil, by simp [scanString]⟩
  | cons c cs ih =>
    obtain ⟨ps, hps, hscan⟩ := ih
    obtain ⟨p, hp, hfirst⟩ := scanString_escapeChar c (cs.flatMap escapeChar ++ '"' :: rest)
    refine ⟨p :: ps, .cons hp hps, ?_⟩
    rw [List.flatMap_cons, List.append_assoc, hfirst, hscan]
    rfl

theorem tokens_stringText (s : String) (rest : List Char) :
    tokens (stringText s ++ rest) = .string (some s) :: tokens rest := by
  obtain ⟨ps, hps, hscan⟩ := scanString_closed s.toList rest
  have htoken : stringToken ps = .string (some s) := by
    rw [stringToken, spell_of_spells hps]
    simp
  rw [stringText, List.append_assoc, List.cons_append, List.singleton_append]
  refine tokens_cons rfl ?_
  simp only [scanToken, hscan, htoken]

-- ---------------------------------------------------------------------------
-- Digits
-- ---------------------------------------------------------------------------

/-- The text does not start with a digit. -/
def EndsDigits (cs : List Char) : Prop :=
  ∀ c ∈ cs.head?, isDigit c = false

/-- The text does not go on like a number. -/
def EndsNumber (cs : List Char) : Prop :=
  ∀ c ∈ cs.head?, isDigit c = false ∧ c ≠ '.' ∧ c ≠ 'e' ∧ c ≠ 'E'

theorem EndsNumber.endsDigits {cs : List Char} (h : EndsNumber cs) : EndsDigits cs :=
  fun c hc => (h c hc).1

/-- Digits, at least one. -/
structure IsDigits (ds : List Char) : Prop where
  digits : ∀ c ∈ ds, isDigit c = true
  nonempty : ds ≠ []

theorem scanDigits_append (lead : Char) {ds rest : List Char} (hds : IsDigits ds)
    (hrest : EndsDigits rest) : scanDigits lead (ds ++ rest) = .ok (ds, rest) := by
  have hstop : rest.takeWhile isDigit = [] ∧ rest.dropWhile isDigit = rest := by
    cases rest with
    | nil => exact ⟨rfl, rfl⟩
    | cons c rest => simp [hrest c rfl]
  have htake : (ds ++ rest).takeWhile isDigit = ds := by
    rw [List.takeWhile_append_of_pos hds.digits, hstop.1, List.append_nil]
  have hdrop : (ds ++ rest).dropWhile isDigit = rest := by
    rw [List.dropWhile_append_of_pos hds.digits, hstop.2]
  rw [scanDigits]
  simp [htake, hdrop, hds.nonempty]

theorem isDigit_of_char_isDigit {c : Char} (h : c.isDigit = true) : isDigit c = true := by
  simpa [isDigit, Char.isDigit, Char.le_def] using h

theorem isDigits_toDigits (n : Nat) : IsDigits (Nat.toDigits 10 n) :=
  ⟨fun _ hc => isDigit_of_char_isDigit (Nat.isDigit_of_mem_toDigits (by decide) (by decide) hc),
    Nat.toDigits_ne_nil⟩

theorem digitsValue_toDigits (n : Nat) : digitsValue (Nat.toDigits 10 n) = n :=
  Nat.ofDigitChars_ten_toDigits

theorem head?_toDigits {n : Nat} (h : n ≠ 0) : (Nat.toDigits 10 n).head? ≠ some '0' := by
  induction n using Nat.strongRecOn with
  | ind n ih =>
    by_cases hsmall : n < 10
    · have hdigit : ∀ d < 10, d ≠ 0 → [d.digitChar].head? ≠ some '0' := by decide
      rw [Nat.toDigits_of_lt_base hsmall]
      exact hdigit n hsmall h
    · rw [Nat.toDigits_of_base_le (by decide) (Nat.not_lt.1 hsmall),
        List.head?_append_of_ne_nil _ Nat.toDigits_ne_nil]
      exact ih (n / 10) (by omega) (by omega)

-- ---------------------------------------------------------------------------
-- Numbers
-- ---------------------------------------------------------------------------

/-- The parts of a number as it is written. -/
structure NumberText where
  negative : Bool
  whole : List Char
  fraction : List Char
  /-- Whether the exponent is negative, and its digits. -/
  power : Option (Bool × List Char)

namespace NumberText

def fractionChars (t : NumberText) : List Char :=
  if t.fraction = [] then [] else '.' :: t.fraction

def powerChars (t : NumberText) : List Char :=
  match t.power with
  | none => []
  | some (negative, ds) => 'e' :: (if negative then '-' else '+') :: ds

def unsignedChars (t : NumberText) : List Char :=
  t.whole ++ t.fractionChars ++ t.powerChars

def chars (t : NumberText) : List Char :=
  if t.negative then '-' :: t.unsignedChars else t.unsignedChars

def powerValue (t : NumberText) : Option Int :=
  t.power.map fun (negative, ds) => if negative then -(digitsValue ds : Int) else digitsValue ds

/-- What the parts mean. -/
def numeral (t : NumberText) : Numeral where
  negative := t.negative
  digits := digitsValue (t.whole ++ t.fraction)
  exponent := t.powerValue.getD 0 - (t.fraction.length : Int)
  integral := t.fraction.isEmpty && t.powerValue.isNone

/-- The parts are digits, and a zero in front stands alone. -/
structure WellFormed (t : NumberText) : Prop where
  whole : IsDigits t.whole
  noLeadingZero : t.whole.head? = some '0' → t.whole.length = 1
  fraction : ∀ c ∈ t.fraction, isDigit c = true
  power : ∀ p ∈ t.power, IsDigits p.2

variable {t : NumberText} {rest : List Char}

theorem scanWhole_append (lead : Char) (h : t.WellFormed) (hrest : EndsDigits rest) :
    scanWhole lead (t.whole ++ rest) = .ok (t.whole, rest) := by
  have hzero : ¬ (t.whole.head? = some '0' ∧ 1 < t.whole.length) := by
    rintro ⟨hhead, hlong⟩
    rw [h.noLeadingZero hhead] at hlong
    exact absurd hlong (Nat.lt_irrefl 1)
  simp only [scanWhole, scanDigits_append lead h.whole hrest, bind, Except.bind, if_neg hzero]
  rfl

theorem scanFraction_append (lead : Char) (h : t.WellFormed) (hrest : EndsDigits rest)
    (hpoint : '.' ∉ rest.head?) :
    scanFraction lead (t.fractionChars ++ rest) = .ok (t.fraction, rest) := by
  unfold fractionChars
  split
  next hnil =>
    rw [hnil, List.nil_append]
    unfold scanFraction
    split
    · exact absurd rfl hpoint
    · rfl
  next hnil =>
    exact scanDigits_append lead ⟨h.fraction, hnil⟩ hrest

theorem scanExponent_append (lead : Char) (h : t.WellFormed) (hrest : EndsNumber rest) :
    scanExponent lead (t.powerChars ++ rest) = .ok (t.powerValue, rest) := by
  unfold powerChars powerValue
  cases hpower : t.power with
  | none =>
    unfold scanExponent
    split
    next cs heq => exact absurd rfl (hrest 'e' (by rw [← List.nil_append rest, heq]; rfl)).2.2.1
    next cs heq => exact absurd rfl (hrest 'E' (by rw [← List.nil_append rest, heq]; rfl)).2.2.2
    · rfl
  | some p =>
    obtain ⟨negative, ds⟩ := p
    have hds : IsDigits ds := h.power _ hpower
    have hscan := scanDigits_append lead hds hrest.endsDigits
    cases negative with
    | false => simp [scanExponent, scanPower, hscan, bind, Except.bind, pure, Except.pure]
    | true => simp [scanExponent, scanPower, hscan, bind, Except.bind, pure, Except.pure]

theorem head?_powerChars (hrest : EndsNumber rest) {c : Char}
    (hc : c ∈ (t.powerChars ++ rest).head?) : isDigit c = false ∧ c ≠ '.' := by
  unfold powerChars at hc
  split at hc
  · exact ⟨(hrest c hc).1, (hrest c hc).2.1⟩
  · obtain rfl : 'e' = c := by simpa using hc
    exact ⟨rfl, by decide⟩

theorem head?_fractionChars (hrest : EndsDigits rest) : EndsDigits (t.fractionChars ++ rest) := by
  unfold fractionChars
  split
  · exact hrest
  · intro c hc
    obtain rfl : '.' = c := by simpa using hc
    rfl

theorem scanUnsigned_append (lead : Char) (h : t.WellFormed) (hrest : EndsNumber rest) :
    scanUnsigned lead t.negative (t.unsignedChars ++ rest) = .ok (.number t.numeral, rest) := by
  have hpower : EndsDigits (t.powerChars ++ rest) := fun c hc => (head?_powerChars hrest hc).1
  have hpoint : '.' ∉ (t.powerChars ++ rest).head? := fun hc =>
    absurd rfl (head?_powerChars hrest hc).2
  simp only [scanUnsigned, unsignedChars, List.append_assoc,
    scanWhole_append lead h (head?_fractionChars hpower), scanFraction_append lead h hpower hpoint,
    scanExponent_append lead h hrest, bind, Except.bind, pure, Except.pure, numeral]

theorem scanToken_digit {c : Char} {cs : List Char} (h : isDigit c = true) :
    scanToken c cs = scanUnsigned c false (c :: cs) := by
  unfold scanToken
  split
  case h_12 => rw [if_pos h]
  all_goals exact absurd h (by decide)

theorem isSpace_of_isDigit {c : Char} (h : isDigit c = true) : isSpace c = false := by
  by_contra hspace
  simp only [isSpace, Bool.not_eq_false, Bool.or_eq_true, decide_eq_true_eq] at hspace
  rcases hspace with ((rfl | rfl) | rfl) | rfl <;> exact absurd h (by decide)

/-- A well-formed number is scanned as a whole. -/
theorem tokens_chars (h : t.WellFormed) (hrest : EndsNumber rest) :
    tokens (t.chars ++ rest) = .number t.numeral :: tokens rest := by
  have hscan (lead : Char) := scanUnsigned_append lead h hrest
  unfold chars
  cases hsign : t.negative with
  | true =>
    simp only [hsign] at hscan
    exact tokens_cons rfl (hscan '-')
  | false =>
    simp only [hsign] at hscan
    -- The sign is left out, so the first digit decides what is scanned.
    obtain ⟨d, ds, hwhole⟩ := List.exists_cons_of_ne_nil h.whole.nonempty
    have hd : isDigit d = true := h.whole.digits d (hwhole ▸ List.mem_cons_self)
    have hfirst : t.unsignedChars ++ rest = d :: (ds ++ t.fractionChars ++ t.powerChars ++ rest) := by
      rw [unsignedChars, hwhole]
      rfl
    simp only [hfirst] at hscan
    simp only [Bool.false_eq_true, if_false, hfirst]
    exact tokens_cons (isSpace_of_isDigit hd) ((scanToken_digit hd).trans (hscan d))

end NumberText

end ArchAudit.Json
