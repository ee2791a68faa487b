-- SUMMARY: Directories are passed over as a layer's in any case, but put a path into the layer in lower case only.
import ArchAudit.Proofs.LayerDirectories
import ArchAudit.Proofs.ReferencesById

/-!
# Features and layers of a path

The domain of a path passes over the directories whose name in lower case is a layer's. The layer
of a path is told by names as they are written. A directory such as `Domain` is therefore no
feature and no layer either, and a path may end up with neither. Main statement: which paths have
no domain, and when these have a layer.
-/

namespace ArchAudit

/-! ## Lowercase -/

namespace Text

/-- No run of the table leads below the small letters. -/
theorem lowercaseRuns_ge : ∀ run ∈ lowercaseRuns, (0x61 : Int) ≤ run.1 + run.2.2.2 := by
  decide +kernel

theorem le_of_lowercaseIn {n m : Nat} {run : Nat × Nat × Nat × Int} (hrun : run ∈ lowercaseRuns)
    (h : lowercaseIn n run = some m) : 0x61 ≤ m := by
  have hge := lowercaseRuns_ge run hrun
  obtain ⟨first, last, step, distance⟩ := run
  simp only [lowercaseIn] at h hge
  split at h
  · next hcovers =>
    obtain rfl := Option.some.inj h
    omega
  · cases h

/-- Lowercasing a character makes small letters or leaves it alone. -/
theorem eq_of_mem_lowercaseChar {c d : Char} (hpos : 0 < d.toNat) (hd : d.toNat < 0x61)
    (h : d ∈ lowercaseChar c) : d = c := by
  unfold lowercaseChar at h
  split at h
  · obtain rfl := List.mem_singleton.1 h
    unfold Char.toLower at hd ⊢
    split
    · next hcapital =>
      rw [dif_pos hcapital] at hd
      exfalso
      obtain ⟨hA, hZ⟩ := hcapital
      have hsum : (c.val + ('a'.val - 'A'.val)).toNat < 0x61 := hd
      rw [UInt32.toNat_add] at hsum
      have hA : 65 ≤ c.val.toNat := UInt32.le_iff_toNat_le.1 hA
      have hZ : c.val.toNat ≤ 90 := UInt32.le_iff_toNat_le.1 hZ
      have hgap : ('a'.val - 'A'.val).toNat = 32 := by decide
      omega
    · rfl
  · split at h
    · simp only [List.mem_cons, List.not_mem_nil, or_false] at h
      rcases h with rfl | rfl <;> exact absurd hd (by decide)
    · split at h
      · next n hn =>
        obtain rfl := List.mem_singleton.1 h
        obtain ⟨run, hrun, hin⟩ := List.exists_of_findSome?_eq_some hn
        have hle := le_of_lowercaseIn hrun hin
        have hvalid : n.isValidChar := by
          by_contra hinvalid
          rw [Char.ofNat, dif_neg hinvalid] at hpos
          exact absurd hpos (by decide)
        have hsmall : n < 0x61 := by
          rwa [Char.ofNat, dif_pos hvalid] at hd
        omega
      · exact List.mem_singleton.1 h

theorem mem_of_mem_lowercaseFrom {before cs : List Char} {d : Char} (hpos : 0 < d.toNat)
    (hd : d.toNat < 0x61) (h : d ∈ lowercaseFrom before cs) : d ∈ cs := by
  induction cs generalizing before with
  | nil => cases h
  | cons c cs ih =>
    rw [lowercaseFrom, List.mem_append] at h
    rcases h with h | h
    · split at h
      · -- both forms of a small sigma are beyond the small letters
        split at h <;> obtain rfl := List.mem_singleton.1 h <;> exact absurd hd (by decide)
      · rw [eq_of_mem_lowercaseChar hpos hd h]
        exact List.mem_cons_self
    · exact List.mem_cons_of_mem _ (ih h)

/-- What stands below the small letters in a lowercased text stood in the text. -/
theorem mem_of_mem_lowercase {s : String} {d : Char} (hpos : 0 < d.toNat) (hd : d.toNat < 0x61)
    (h : d ∈ (lowercase s).toList) : d ∈ s.toList := by
  rw [lowercase, String.toList_ofList] at h
  exact mem_of_mem_lowercaseFrom hpos hd h

/-! ## Segments -/

theorem mem_of_mem_splitChars {isSeparator : Char → Bool} {cs piece : List Char} {c : Char}
    (hpiece : piece ∈ splitChars isSeparator cs) (hc : c ∈ piece) :
    c ∈ cs ∧ isSeparator c = false := by
  induction cs generalizing piece with
  | nil =>
    obtain rfl := List.mem_singleton.1 hpiece
    cases hc
  | cons x cs ih =>
    rw [splitChars] at hpiece
    split at hpiece
    · rcases List.mem_cons.1 hpiece with rfl | hpiece
      · cases hc
      · exact (ih hpiece hc).imp_left (List.mem_cons_of_mem _)
    · next hx =>
      split at hpiece
      · next hnil => exact absurd hnil (splitChars_ne_nil cs)
      · next first pieces hpieces =>
        rw [hpieces] at ih
        rcases List.mem_cons.1 hpiece with rfl | hpiece
        · rcases List.mem_cons.1 hc with rfl | hc
          · exact ⟨List.mem_cons_self, by simpa using hx⟩
          · exact (ih List.mem_cons_self hc).imp_left (List.mem_cons_of_mem _)
        · exact (ih (List.mem_cons_of_mem _ hpiece) hc).imp_left (List.mem_cons_of_mem _)

/-- The text has neither kind of slash. -/
def Slashless (s : String) : Prop :=
  '/' ∉ s.toList ∧ '\\' ∉ s.toList

theorem slashless_of_mem_split {path segment : String}
    (h : segment ∈ split (· = '/') (forwardSlashes path)) : Slashless segment := by
  obtain ⟨piece, hpiece, rfl⟩ := List.mem_map.1 h
  rw [Slashless, String.toList_ofList]
  constructor
  · intro hslash
    have hseparator := (mem_of_mem_splitChars hpiece hslash).2
    simp at hseparator
  · intro hslash
    have hmem := (mem_of_mem_splitChars hpiece hslash).1
    rw [toList_forwardSlashes] at hmem
    obtain ⟨c, _, hc⟩ := List.mem_map.1 hmem
    have hsame := forwardSlash_forwardSlash c
    rw [hc] at hsame
    exact forwardSlash_eq_self.1 hsame rfl

theorem Slashless.lowercase {s : String} (h : Slashless s) : Slashless (lowercase s) where
  left hmem := h.1 (mem_of_mem_lowercase (by decide) (by decide) hmem)
  right hmem := h.2 (mem_of_mem_lowercase (by decide) (by decide) hmem)

/-- A file in a directory has that one directory. -/
theorem Slashless.split_file {directory : String} (h : Slashless directory) :
    split (· = '/') (forwardSlashes (directory ++ "/x")) = [directory, "x"] := by
  have hchars : (directory ++ "/x").toList = directory.toList ++ '/' :: ['x'] := by
    rw [String.toList_append]
    rfl
  have hdirectory : directory.toList.map forwardSlash = directory.toList := by
    rw [List.map_congr_left (g := id), List.map_id]
    intro c hc
    exact forwardSlash_eq_self.2 fun hslash => h.2 (hslash ▸ hc)
  rw [split, toList_forwardSlashes, hchars, List.map_append, hdirectory, List.map_cons,
    List.map_singleton]
  change (splitChars (· = '/') (directory.toList ++ '/' :: ['x'])).map String.ofList = _
  rw [splitChars_append (by decide), splitChars_slashless h.1, splitChars_slashless (by decide),
    List.map_append, List.map_singleton, String.ofList_toList]
  rfl

end Text

/-! ## Names of layers -/

/-- The directory is named for a layer, letter for letter. -/
def Layer.IsDirectoryName (name : String) : Prop :=
  ∃ layer : Layer, name ∈ layer.directoryNames

namespace LayerClassifier

/-- The directories of a path that may name a feature: those that are not customary. -/
def tellingDirectories (path : String) : List String :=
  (directories (Text.forwardSlashes path)).filter fun directory =>
    !neutralDirectories.contains (Text.lowercase directory)

theorem mem_tellingDirectories {path directory : String} :
    directory ∈ tellingDirectories path ↔
      directory ∈ directories (Text.forwardSlashes path) ∧
        Text.lowercase directory ∉ neutralDirectories := by
  simp [tellingDirectories]

/-- The classifier looks for the standard names of directories. -/
def LooksForNames (k : LayerClassifier) : Prop :=
  ∀ path, (k.classify path).isSome = true ↔
    ∃ segment ∈ (Text.split (· = '/') (Text.forwardSlashes path)).dropLast,
      Layer.IsDirectoryName segment

theorem exists_looksForNames : ∃ k, ofPatterns .standard = .ok k ∧ k.LooksForNames := by
  refine ⟨ofDirectories Layer.directoryNames, ofPatterns_standard, fun path => ?_⟩
  rw [classify_ofDirectories Layer.isPlainName_of_mem_directoryNames, List.find?_isSome]
  simp only [List.any_eq_true, List.contains_iff_mem]
  constructor
  · rintro ⟨layer, _, segment, hsegment, hname⟩
    exact ⟨segment, hsegment, layer, hname⟩
  · rintro ⟨segment, hsegment, layer, hname⟩
    exact ⟨layer, by cases layer <;> decide, segment, hsegment, hname⟩

namespace LooksForNames

variable {k : LayerClassifier} {path : String}

theorem isLayerDirectory_iff (hk : k.LooksForNames) {directory : String}
    (h : Text.Slashless directory) :
    k.isLayerDirectory directory = true ↔ Layer.IsDirectoryName directory := by
  rw [isLayerDirectory, hk, h.split_file]
  simp

theorem slashless_of_mem_directories {directory : String}
    (h : directory ∈ directories (Text.forwardSlashes path)) : Text.Slashless directory := by
  rw [directories] at h
  exact Text.slashless_of_mem_split (List.mem_of_mem_filter (List.mem_of_mem_dropLast h))

/-- A path has no domain if all its telling directories are named for a layer in lower case. -/
theorem domainKey_eq_none_iff (hk : k.LooksForNames) :
    k.domainKey path = none ↔
      ∀ directory ∈ tellingDirectories path, Layer.IsDirectoryName (Text.lowercase directory) := by
  have hlayer (directory : String) (h : directory ∈ directories (Text.forwardSlashes path)) :
      k.isLayerDirectory (Text.lowercase directory) = true ↔
        Layer.IsDirectoryName (Text.lowercase directory) :=
    hk.isLayerDirectory_iff (slashless_of_mem_directories h).lowercase
  simp only [domainKey, List.find?_eq_none, List.forall_mem_map, tellingDirectories,
    List.mem_filter, Bool.and_eq_true, not_and, Bool.not_eq_true', Bool.not_eq_false]
  constructor
  · rintro h directory ⟨hmem, htelling⟩
    exact (hlayer directory hmem).1 (h directory hmem htelling)
  · intro h directory hmem htelling
    exact (hlayer directory hmem).2 (h directory ⟨hmem, htelling⟩)

end LooksForNames

theorem mem_segments_of_mem_directories {path directory : String}
    (h : directory ∈ directories (Text.forwardSlashes path)) :
    directory ∈ (Text.split (· = '/') (Text.forwardSlashes path)).dropLast := by
  rw [directories] at h
  have hsublist := (List.filter_sublist (p := (!·.isEmpty))
    (l := Text.split (· = '/') (Text.forwardSlashes path))).reverse.tail
  rw [List.tail_reverse, List.tail_reverse] at hsublist
  exact (List.reverse_sublist.1 hsublist).subset h

/-- Layers are named in lower case, and not like a customary directory. -/
theorem lowercase_of_isDirectoryName {name : String} (h : Layer.IsDirectoryName name) :
    Text.lowercase name = name ∧ name ∉ neutralDirectories := by
  have hnames : ∀ layer : Layer, ∀ name ∈ layer.directoryNames,
      Text.lowercase name = name ∧ name ∉ neutralDirectories := by
    intro layer
    cases layer <;> decide +kernel
  obtain ⟨layer, hname⟩ := h
  exact hnames layer name hname

/-- With the standard patterns, a path has no domain if and only if all its telling directories
    are named for a layer in some case. If there are such directories, the path has a layer if
    and only if one of them is written in lower case, or one that is not a directory of the path
    because only slashes follow it. -/
theorem layer_of_path_without_domain (path : String) :
    ∃ k, ofPatterns .standard = .ok k ∧
      (k.domainKey path = none ↔
        ∀ directory ∈ tellingDirectories path,
          Layer.IsDirectoryName (Text.lowercase directory)) ∧
      (tellingDirectories path ≠ [] → k.domainKey path = none →
        ((k.classify path).isSome = true ↔
          (∃ directory ∈ tellingDirectories path, Text.lowercase directory = directory) ∨
          ∃ segment ∈ (Text.split (· = '/') (Text.forwardSlashes path)).dropLast,
            segment ∉ directories (Text.forwardSlashes path) ∧
              Layer.IsDirectoryName segment)) := by
  obtain ⟨k, hread, hk⟩ := exists_looksForNames
  refine ⟨k, hread, hk.domainKey_eq_none_iff, fun _ hnone => ?_⟩
  rw [hk.domainKey_eq_none_iff] at hnone
  rw [hk path]
  constructor
  · rintro ⟨segment, hsegment, hname⟩
    by_cases hdirectory : segment ∈ directories (Text.forwardSlashes path)
    · obtain ⟨hlower, hneutral⟩ := lowercase_of_isDirectoryName hname
      rw [← hlower] at hneutral
      exact .inl ⟨segment, mem_tellingDirectories.2 ⟨hdirectory, hneutral⟩, hlower⟩
    · exact .inr ⟨segment, hsegment, hdirectory, hname⟩
  · rintro (⟨directory, htelling, hlower⟩ | ⟨segment, hsegment, _, hname⟩)
    · have hname := hnone directory htelling
      rw [hlower] at hname
      have hdirectory := (mem_tellingDirectories.1 htelling).1
      exact ⟨directory, mem_segments_of_mem_directories hdirectory, hname⟩
    · exact ⟨segment, hsegment, hname⟩

/-- Of two directories that are passed over, the one in lower case gives the path its layer. -/
theorem layer_of_path_without_domain_mixedCase :
    tellingDirectories "src/Domain/services/pay.rs" = ["Domain", "services"] ∧
    ∃ k, ofPatterns .standard = .ok k ∧ k.domainKey "src/Domain/services/pay.rs" = none ∧
      (k.classify "src/Domain/services/pay.rs").isSome = true := by
  have htelling : tellingDirectories "src/Domain/services/pay.rs" = ["Domain", "services"] := by
    decide +kernel
  obtain ⟨k, hread, hkey, hlayer⟩ := layer_of_path_without_domain "src/Domain/services/pay.rs"
  rw [htelling] at hkey hlayer
  have hnone := hkey.2 (by
    intro directory hdirectory
    simp only [List.mem_cons, List.not_mem_nil, or_false] at hdirectory
    rcases hdirectory with rfl | rfl
    · exact ⟨.domain, by decide +kernel⟩
    · exact ⟨.application, by decide +kernel⟩)
  refine ⟨htelling, k, hread, hnone, (hlayer (by decide) hnone).2 (.inl ⟨"services", ?_, ?_⟩)⟩
  · decide
  · decide +kernel

/-- A capital letter alone leaves a path without a domain and without a layer. -/
theorem capital_directory_is_unplaced :
    (∃ directory ∈ directories (Text.forwardSlashes "src/Domain/user.rs"),
      Text.lowercase directory ∉ neutralDirectories) ∧
    ∃ k, ofPatterns .standard = .ok k ∧ k.domainKey "src/Domain/user.rs" = none ∧
      k.classify "src/Domain/user.rs" = none := by
  have htelling : tellingDirectories "src/Domain/user.rs" = ["Domain"] := by
    decide +kernel
  have hsegments : (Text.split (· = '/') (Text.forwardSlashes "src/Domain/user.rs")).dropLast =
      ["src", "Domain"] := by
    decide +kernel
  have hnames : ∀ segment ∈ ["src", "Domain"], ¬ Layer.IsDirectoryName segment := by
    rintro segment hsegment ⟨layer, hname⟩
    revert segment
    cases layer <;> decide
  obtain ⟨k, hread, hk⟩ := exists_looksForNames
  refine ⟨⟨"Domain", by decide +kernel⟩, k, hread, ?_, ?_⟩
  · rw [hk.domainKey_eq_none_iff, htelling, List.forall_mem_singleton]
    exact ⟨.domain, by decide +kernel⟩
  · rw [← Option.not_isSome_iff_eq_none, hk, hsegments]
    rintro ⟨segment, hsegment, hname⟩
    exact hnames segment hsegment hname

end LayerClassifier

end ArchAudit
