-- SUMMARY: Patterns with a name between two double stars look for a directory of that name.
import ArchAudit.Layer.Classifier
import ArchAudit.Proofs.GlobLanguages

/-!
# Layers by directory

A pattern that has a plain name between two double stars matches the paths with a directory of
that name: a segment that another one follows. Matching is by bytes and segments are of
characters, but the byte of a slash occurs in no other character, so both cut a path at the
same places. With the standard patterns, the layer of a path is therefore the first one that
one of its directories is named for.
-/

namespace ArchAudit

/-! ## Segments -/

namespace Text

variable {isSeparator : Char → Bool} {cs name : List Char}

theorem splitChars_ne_nil (cs : List Char) : splitChars isSeparator cs ≠ [] := by
  fun_cases splitChars isSeparator cs <;> simp

theorem splitChars_eq_singleton (h : ∀ c ∈ cs, isSeparator c = false) :
    splitChars isSeparator cs = [cs] := by
  induction cs with
  | nil => rfl
  | cons c cs ih =>
    rw [List.forall_mem_cons] at h
    simp [splitChars, h.1, ih h.2]

/-- A text splits at each of its separators. -/
theorem splitChars_append {separator : Char} (h : isSeparator separator = true)
    (cs rest : List Char) :
    splitChars isSeparator (cs ++ separator :: rest) =
      splitChars isSeparator cs ++ splitChars isSeparator rest := by
  induction cs with
  | nil => simp [splitChars, h]
  | cons c cs ih =>
    rw [List.cons_append, splitChars, splitChars, ih]
    split
    · rfl
    · cases hpieces : splitChars isSeparator cs with
      | nil => exact absurd hpieces (splitChars_ne_nil cs)
      | cons piece pieces => rfl

/-- The name stands in the text with a slash after it, and at the start or after a slash. -/
def HasDirectory (cs name : List Char) : Prop :=
  (∃ rest, cs = name ++ '/' :: rest) ∨ ∃ before rest, cs = before ++ '/' :: (name ++ '/' :: rest)

theorem HasDirectory.after (h : HasDirectory cs name) (front : List Char) :
    HasDirectory (front ++ '/' :: cs) name := by
  rcases h with ⟨rest, rfl⟩ | ⟨before, rest, rfl⟩
  · exact .inr ⟨front, rest, rfl⟩
  · exact .inr ⟨front ++ '/' :: before, rest, by simp⟩

theorem dropLast_splitChars_append (cs rest : List Char) :
    (splitChars (· = '/') (cs ++ '/' :: rest)).dropLast =
      splitChars (· = '/') cs ++ (splitChars (· = '/') rest).dropLast := by
  rw [splitChars_append (by decide), List.dropLast_append_of_ne_nil (splitChars_ne_nil rest)]

theorem splitChars_slashless (h : '/' ∉ cs) : splitChars (· = '/') cs = [cs] := by
  apply splitChars_eq_singleton
  intro c hc
  exact decide_eq_false (ne_of_mem_of_not_mem hc h)

theorem hasDirectory_of_mem (h : name ∈ (splitChars (· = '/') cs).dropLast) :
    HasDirectory cs name := by
  -- the induction is on the length, from one slash to the next
  induction hn : cs.length using Nat.strongRecOn generalizing cs with
  | ind n ih =>
    by_cases hslash : '/' ∈ cs
    · obtain ⟨front, rest, rfl, hfront⟩ := List.eq_append_cons_of_mem hslash
      rw [dropLast_splitChars_append, splitChars_slashless hfront, List.mem_append,
        List.mem_singleton] at h
      rcases h with rfl | hrest
      · exact .inl ⟨rest, rfl⟩
      · refine HasDirectory.after (ih rest.length ?_ hrest rfl) front
        simp only [← hn, List.length_append, List.length_cons]
        omega
    · rw [splitChars_slashless hslash] at h
      cases h

theorem mem_of_hasDirectory (hname : '/' ∉ name) (h : HasDirectory cs name) :
    name ∈ (splitChars (· = '/') cs).dropLast := by
  rcases h with ⟨rest, rfl⟩ | ⟨before, rest, rfl⟩
  · simp [dropLast_splitChars_append, splitChars_slashless hname]
  · simp [dropLast_splitChars_append, splitChars_slashless hname]

end Text

namespace Glob

/-! ## Bytes of characters -/

/-- The bytes of characters in UTF-8. -/
def bytesOf (cs : List Char) : Bytes :=
  cs.flatMap charBytes

@[simp] theorem bytesOf_nil : bytesOf [] = [] := rfl

@[simp] theorem bytesOf_cons (c : Char) (cs : List Char) :
    bytesOf (c :: cs) = charBytes c ++ bytesOf cs := rfl

@[simp] theorem bytesOf_append (cs ds : List Char) :
    bytesOf (cs ++ ds) = bytesOf cs ++ bytesOf ds :=
  List.flatMap_append

theorem bytesOf_injective {cs ds : List Char} (h : bytesOf cs = bytesOf ds) : cs = ds := by
  have hencode : cs.utf8Encode = ds.utf8Encode := congrArg List.toByteArray h
  rw [← String.toByteArray_ofList, ← String.toByteArray_ofList, String.toByteArray_inj] at hencode
  exact String.ofList_injective hencode

@[simp] theorem charBytes_slash : charBytes '/' = [slash] := rfl

/-- All bytes of a character that takes several are at least 128. -/
theorem eq_of_slash_mem_charBytes {c : Char} (h : slash ∈ charBytes c) : c = '/' := by
  have hslash (n : Nat) (hn : slash = UInt8.ofNat n) : n % 256 = 47 := by
    simpa [slash] using (congrArg UInt8.toNat hn).symm
  apply Char.ext
  apply UInt32.toNat_inj.1
  change c.val.toNat = 47
  simp only [charBytes, String.utf8EncodeChar] at h
  split at h
  · have := hslash _ (List.mem_singleton.1 h)
    omega
  · exfalso
    split at h
    · simp only [List.mem_cons, List.not_mem_nil, or_false] at h
      rcases h with h | h <;> have := hslash _ h <;> omega
    · split at h
      · simp only [List.mem_cons, List.not_mem_nil, or_false] at h
        rcases h with h | h | h <;> have := hslash _ h <;> omega
      · simp only [List.mem_cons, List.not_mem_nil, or_false] at h
        rcases h with h | h | h | h <;> have := hslash _ h <;> omega

/-- Bytes can be cut at a slash only where the characters have one. -/
theorem exists_of_bytesOf_eq {cs : List Char} {front rest : Bytes}
    (h : bytesOf cs = front ++ slash :: rest) :
    ∃ cs₁ cs₂, cs = cs₁ ++ '/' :: cs₂ ∧ bytesOf cs₁ = front ∧ bytesOf cs₂ = rest := by
  induction cs generalizing front with
  | nil => simp at h
  | cons c cs ih =>
    rw [bytesOf_cons, List.append_eq_append_iff] at h
    rcases h with ⟨front', rfl, hcs⟩ | ⟨tail, hc, hrest⟩
    · obtain ⟨cs₁, cs₂, rfl, rfl, rfl⟩ := ih hcs
      exact ⟨c :: cs₁, cs₂, rfl, rfl, rfl⟩
    · cases tail with
      | nil =>
        have hcs : bytesOf cs = [] ++ slash :: rest := hrest.symm
        obtain ⟨cs₁, cs₂, rfl, hnil, rfl⟩ := ih hcs
        exact ⟨c :: cs₁, cs₂, rfl, by simp [hc, hnil], rfl⟩
      | cons b tail =>
        obtain ⟨rfl, rfl⟩ := List.cons.inj hrest
        obtain rfl : c = '/' := eq_of_slash_mem_charBytes (by simp [hc])
        -- the slash is a single byte, so nothing stands around it
        cases front with
        | nil =>
          obtain ⟨-, rfl⟩ := List.cons.inj hc
          exact ⟨[], cs, rfl, rfl, rfl⟩
        | cons b front => simp at hc

theorem bytesOf_eq_append_iff {cs name : List Char} :
    (∃ rest, bytesOf cs = bytesOf name ++ slash :: rest) ↔ ∃ rest, cs = name ++ '/' :: rest := by
  constructor
  · rintro ⟨rest, h⟩
    obtain ⟨cs₁, cs₂, rfl, hname, -⟩ := exists_of_bytesOf_eq h
    exact ⟨cs₂, by rw [bytesOf_injective hname]⟩
  · rintro ⟨rest, rfl⟩
    exact ⟨bytesOf rest, by simp⟩

/-- The bytes of a text and its characters have the same directories. -/
theorem hasDirectory_iff {cs name : List Char} :
    Text.HasDirectory cs name ↔
      (∃ rest, bytesOf cs = bytesOf name ++ slash :: rest) ∨
        ∃ before rest, bytesOf cs = before ++ slash :: (bytesOf name ++ slash :: rest) := by
  refine or_congr bytesOf_eq_append_iff.symm ?_
  constructor
  · rintro ⟨before, rest, rfl⟩
    exact ⟨bytesOf before, bytesOf rest, by simp⟩
  · rintro ⟨before, rest, h⟩
    obtain ⟨cs₁, cs₂, rfl, -, h₂⟩ := exists_of_bytesOf_eq h
    obtain ⟨rest', rfl⟩ := bytesOf_eq_append_iff.1 ⟨rest, h₂⟩
    exact ⟨cs₁, rest', rfl⟩

/-! ## Reading patterns -/

/-- The character stands for itself in a pattern. -/
def IsPlainChar (c : Char) : Prop :=
  c ∉ ['?', '*', '[', '\x7b', '\x7d', ',', '\\']

instance (c : Char) : Decidable (IsPlainChar c) :=
  inferInstanceAs (Decidable (_ ∉ _))

theorem readPart_plain {c : Char} (hc : IsPlainChar c) (s : State) (cs : List Char) :
    readPart s c cs = .ok (s.push (.literal c) c, cs) := by
  unfold readPart
  split <;> first | rfl | exact absurd hc (by decide)

theorem readParts_of_readPart {s s' : State} {c : Char} {cs rest : List Char}
    (h : readPart s c cs = .ok (s', rest)) : readParts s (c :: cs) = readParts s' rest := by
  rw [readParts]
  split <;> simp_all

/-- Characters that stand for themselves are read up to a slash as they are. -/
theorem readParts_plain {name : List Char} (hname : ∀ c ∈ name, IsPlainChar c) (s : State)
    (rest : List Char) :
    readParts s (name ++ '/' :: rest) =
      readParts
        { s with
          parts := .literal '/' :: ((name.map .literal).reverse ++ s.parts)
          previous := some '/' } rest := by
  induction name generalizing s with
  | nil => exact readParts_of_readPart (readPart_plain (by decide) s rest)
  | cons c name ih =>
    rw [List.forall_mem_cons] at hname
    rw [List.cons_append, readParts_of_readPart (readPart_plain hname.1 s _), ih hname.2]
    simp [State.push]

/-- The pattern of a directory. -/
def directoryPattern (name : String) : String :=
  "**/" ++ name ++ "/**"

/-- The parts of the pattern of a directory. -/
def directory (name : String) : Glob where
  parts := .leadingDirs :: (name.toList.map .literal ++ [.trailingDirs])

theorem parse_directoryPattern {name : String} (hname : ∀ c ∈ name.toList, IsPlainChar c) :
    parse (directoryPattern name) = .ok (directory name) := by
  have hchars : (directoryPattern name).toList =
      '*' :: '*' :: '/' :: (name.toList ++ '/' :: ['*', '*']) := by
    simp [directoryPattern]
  have hfirst (rest : List Char) : readParts ⟨[], [], none⟩ ('*' :: '*' :: '/' :: rest) =
      readParts ⟨[.leadingDirs], [], some '/'⟩ rest :=
    readParts_of_readPart rfl
  have hlast (parts : List Part) :
      readParts ⟨.literal '/' :: parts, [], some '/'⟩ ['*', '*'] =
        .ok (.trailingDirs :: parts).reverse := by
    have hstar : readPart ⟨.literal '/' :: parts, [], some '/'⟩ '*' ['*'] =
        .ok (⟨.trailingDirs :: parts, [], some '*'⟩, []) := rfl
    rw [readParts_of_readPart hstar, readParts]
    rfl
  rw [parse, hchars, hfirst, readParts_plain hname, hlast]
  simp [Except.map, directory]

/-! ## Matching -/

theorem rowAccepts_bytes_iff {bytes text : Bytes} {row : List Element} :
    RowAccepts (bytes.map .byte ++ row) text ↔
      ∃ rest, text = bytes ++ rest ∧ RowAccepts row rest := by
  induction bytes generalizing text with
  | nil => simp
  | cons b bytes ih => simp [RowAccepts, Element.Accepts, ih]

theorem rowElements_append (parts parts' : List Part) :
    rowElements (parts ++ parts') = rowElements parts ++ rowElements parts' := by
  induction parts with
  | nil => rfl
  | cons p parts ih => simp [rowElements, ih]

theorem rowElements_literals (cs : List Char) :
    rowElements (cs.map .literal) = (bytesOf cs).map .byte := by
  induction cs with
  | nil => rfl
  | cons c cs ih => simp [rowElements, Part.elements, ih]

theorem row_directory (name : String) :
    (directory name).row =
      .choice [[.optional slash], [.anyBytes, .byte slash]] ::
        ((bytesOf name.toList).map .byte ++ [.byte slash, .anyBytes]) := by
  have hrow : (directory name).row = rowElements (directory name).parts := by
    rw [row]
    split
    · rename_i h
      simp [directory] at h
    · rfl
  rw [hrow, directory, rowElements, rowElements_append, rowElements_literals]
  rfl

theorem leadingDirs_accepts_iff {text : Bytes} :
    (Element.choice [[.optional slash], [.anyBytes, .byte slash]]).Accepts text ↔
      text = [] ∨ ∃ before, text = before ++ [slash] := by
  simp only [Element.Accepts, RowsAccept, RowAccepts]
  constructor
  · rintro (⟨u, v, rfl, rfl | rfl, rfl⟩ | ⟨before, v, rfl, -, w, x, rfl, rfl, rfl⟩ | h)
    · exact .inl rfl
    · exact .inr ⟨[], rfl⟩
    · exact .inr ⟨before, rfl⟩
    · exact h.elim
  · rintro (rfl | ⟨before, rfl⟩)
    · exact .inl ⟨[], [], rfl, .inl rfl, rfl⟩
    · exact .inr (.inl ⟨before, [slash], rfl, trivial, [slash], [], rfl, rfl, rfl⟩)

theorem trailingDirs_accepts_iff {text : Bytes} :
    RowAccepts [.byte slash, .anyBytes] text ↔ ∃ rest, text = slash :: rest := by
  simp [RowAccepts, Element.Accepts]

/-- The pattern of a directory stands for the texts that have it. -/
theorem rowMatches_directory {name : String} {text : Bytes} :
    rowMatches (directory name).row text = true ↔
      (∃ rest, text = bytesOf name.toList ++ slash :: rest) ∨
        ∃ before rest, text = before ++ slash :: (bytesOf name.toList ++ slash :: rest) := by
  rw [rowMatches_iff, row_directory, RowAccepts]
  simp only [leadingDirs_accepts_iff, rowAccepts_bytes_iff, trailingDirs_accepts_iff]
  constructor
  · rintro ⟨u, v, rfl, rfl | ⟨before, rfl⟩, w, rfl, rest, rfl⟩
    · exact .inl ⟨rest, rfl⟩
    · exact .inr ⟨before, rest, by simp⟩
  · rintro (⟨rest, rfl⟩ | ⟨before, rest, rfl⟩)
    · exact ⟨[], _, rfl, .inl rfl, _, rfl, rest, rfl⟩
    · exact ⟨before ++ [slash], _, by simp, .inr ⟨before, rfl⟩, _, rfl, rest, rfl⟩

theorem literals?_append_trailingDirs (parts : List Part) :
    literals? (parts ++ [.trailingDirs]) = none := by
  simp [literals?, List.mapM_append, Part.literal?]

theorem usesFileName_directory (name : String) : (directory name).form.usesFileName = false := by
  have hname : isFileName (directory name).parts = false := by
    simp [isFileName, directory, afterLeadingDirs?, literals?_append_trailingDirs]
  have hextension : isExtension (directory name).parts = false := by
    cases h : name.toList <;>
      simp [isExtension, directory, withoutLeadingDirs, afterLeadingDirs?, h]
  have hends : endsInExtension (directory name).parts = false := by
    simp [endsInExtension, directory, Part.literal?]
  simp only [form, hname, hextension, hends, Bool.false_eq_true, if_false]
  split_ifs <;> rfl

/-- A pattern of a directory matches the paths that have it before their last segment. -/
theorem isMatch_directory_iff {name path : String} (hname : '/' ∉ name.toList) :
    (directory name).isMatch path = true ↔ name ∈ (Text.split (· = '/') path).dropLast := by
  have hbytes : Text.utf8 path = bytesOf path.toList := rfl
  rw [isMatch, usesFileName_directory, hbytes]
  simp only [Bool.false_and, Bool.not_false, Bool.true_and]
  rw [rowMatches_directory, ← hasDirectory_iff, Text.split, ← List.map_dropLast, List.mem_map]
  constructor
  · intro h
    exact ⟨name.toList, Text.mem_of_hasDirectory hname h, String.ofList_toList⟩
  · rintro ⟨cs, hcs, rfl⟩
    rw [String.toList_ofList]
    exact Text.hasDirectory_of_mem hcs

/-! ## Nesting -/

theorem isTooDeep_directory (name : String) : (directory name).isTooDeep = false := by
  have hbytes (bytes : Bytes) (row : List Element) :
      elementsNesting (bytes.map .byte ++ row) = elementsNesting row := by
    induction bytes with
    | nil => rfl
    | cons b bytes ih => simp [elementsNesting, Element.nesting, ih]
  rw [isTooDeep, row_directory, elementsNesting, hbytes]
  decide

end Glob

/-! ## Layers -/

/-- The patterns that look for the directories of each layer. -/
def LayerPatterns.ofDirectories (names : Layer → List String) : LayerPatterns where
  domain := (names .domain).map Glob.directoryPattern
  application := (names .application).map Glob.directoryPattern
  infrastructure := (names .infrastructure).map Glob.directoryPattern
  presentation := (names .presentation).map Glob.directoryPattern

/-- The classifier that looks for the directories of each layer. -/
def LayerClassifier.ofDirectories (names : Layer → List String) : LayerClassifier where
  domain := (names .domain).map Glob.directory
  application := (names .application).map Glob.directory
  infrastructure := (names .infrastructure).map Glob.directory
  presentation := (names .presentation).map Glob.directory

/-- The names that directories of a layer customarily have. -/
def Layer.directoryNames : Layer → List String
  | .domain => ["domain", "entity", "entities", "model", "models"]
  | .application => ["application", "usecase", "usecases", "service", "services"]
  | .infrastructure =>
    ["infrastructure", "adapter", "adapters", "repository", "repositories", "persistence"]
  | .presentation =>
    ["presentation", "handler", "handlers", "controller", "controllers", "api", "cmd"]

/-- The name is a single segment in which every character stands for itself. -/
def IsPlainName (name : String) : Prop :=
  ∀ c ∈ name.toList, Glob.IsPlainChar c ∧ c ≠ '/'

instance (name : String) : Decidable (IsPlainName name) :=
  List.decidableBAll _ _

theorem Layer.isPlainName_of_mem_directoryNames (layer : Layer) :
    ∀ name ∈ layer.directoryNames, IsPlainName name := by
  cases layer <;> decide +kernel

theorem LayerPatterns.standard_eq_ofDirectories :
    LayerPatterns.standard = .ofDirectories Layer.directoryNames := by
  decide

namespace LayerClassifier

theorem mapM_readPattern {names : List String} (hnames : ∀ name ∈ names, IsPlainName name) :
    (names.map Glob.directoryPattern).mapM readPattern = .ok (names.map Glob.directory) := by
  induction names with
  | nil => rfl
  | cons name names ih =>
    rw [List.forall_mem_cons] at hnames
    have hread : readPattern (Glob.directoryPattern name) = .ok (Glob.directory name) := by
      rw [readPattern, Glob.parse_directoryPattern fun c hc => (hnames.1 c hc).1]
    rw [List.map_cons, List.mapM_cons, hread, ih hnames.2]
    rfl

theorem depthError?_eq_none {globs : List Glob} (h : ∀ g ∈ globs, g.isTooDeep = false)
    (patterns : List String) : depthError? patterns globs = none := by
  have hextended : (globs.find? fun g => g.form = .extendedExpression && g.isTooDeep) = none := by
    rw [List.find?_eq_none]
    intro g hg
    simp [h g hg]
  have hplaces : (globs.filter (·.form = .expression)).findIdx? Glob.isTooDeep = none := by
    rw [List.findIdx?_eq_none_iff]
    intro g hg
    exact h g (List.mem_of_mem_filter hg)
  rw [depthError?, hextended, hplaces]
  rfl

theorem readPatterns_directories {names : List String} (hnames : ∀ name ∈ names, IsPlainName name) :
    readPatterns (names.map Glob.directoryPattern) = .ok (names.map Glob.directory) := by
  have hshallow : ∀ g ∈ names.map Glob.directory, g.isTooDeep = false := by
    rw [List.forall_mem_map]
    exact fun name _ => Glob.isTooDeep_directory name
  rw [readPatterns, mapM_readPattern hnames]
  simp only [bind, Except.bind, depthError?_eq_none hshallow]
  rfl

theorem any_isMatch_directory {names : List String} (hnames : ∀ name ∈ names, IsPlainName name)
    (path : String) :
    (names.map Glob.directory).any (·.isMatch path) =
      (Text.split (· = '/') path).dropLast.any (names.contains ·) := by
  have hmatch (name : String) (hname : name ∈ names) :
      (Glob.directory name).isMatch path = true ↔ name ∈ (Text.split (· = '/') path).dropLast :=
    Glob.isMatch_directory_iff fun hslash => (hnames name hname _ hslash).2 rfl
  rw [Bool.eq_iff_iff, List.any_map, List.any_eq_true, List.any_eq_true]
  constructor
  · rintro ⟨name, hname, h⟩
    exact ⟨name, (hmatch name hname).1 h, List.contains_iff_mem.2 hname⟩
  · rintro ⟨name, hdirectory, h⟩
    have hname := List.contains_iff_mem.1 h
    exact ⟨name, hname, (hmatch name hname).2 hdirectory⟩

section

variable {names : Layer → List String}

theorem globs_ofDirectories (layer : Layer) :
    (ofDirectories names).globs layer = (names layer).map Glob.directory := by
  cases layer <;> rfl

/-- Patterns of directories can be read. -/
theorem ofPatterns_ofDirectories (hnames : ∀ layer, ∀ name ∈ names layer, IsPlainName name) :
    ofPatterns (.ofDirectories names) = .ok (ofDirectories names) := by
  simp only [ofPatterns, LayerPatterns.ofDirectories, readPatterns_directories (hnames _)]
  rfl

/-- A classifier of directories goes by the segments before the last one. -/
theorem classify_ofDirectories (hnames : ∀ layer, ∀ name ∈ names layer, IsPlainName name)
    (path : String) :
    (ofDirectories names).classify path =
      [Layer.domain, .application, .infrastructure, .presentation].find? fun layer =>
        (Text.split (· = '/') (Text.forwardSlashes path)).dropLast.any
          ((names layer).contains ·) := by
  simp only [classify, globs_ofDirectories, any_isMatch_directory (hnames _)]
  rfl

end

theorem ofPatterns_standard :
    ofPatterns .standard = .ok (ofDirectories Layer.directoryNames) := by
  rw [LayerPatterns.standard_eq_ofDirectories,
    ofPatterns_ofDirectories Layer.isPlainName_of_mem_directoryNames]

/-- With the standard patterns, the layer of a path is the first one, from the domain outwards,
    that a segment before the last one is named for. -/
theorem classify_standard :
    LayerPatterns.standard = .ofDirectories Layer.directoryNames ∧
      ∃ k, ofPatterns .standard = .ok k ∧ ∀ path, k.classify path =
        [Layer.domain, .application, .infrastructure, .presentation].find? fun layer =>
          (Text.split (· = '/') (Text.forwardSlashes path)).dropLast.any
            (layer.directoryNames.contains ·) := by
  refine ⟨LayerPatterns.standard_eq_ofDirectories, ofDirectories Layer.directoryNames,
    ofPatterns_standard, fun path => ?_⟩
  exact classify_ofDirectories Layer.isPlainName_of_mem_directoryNames path

end LayerClassifier

end ArchAudit
