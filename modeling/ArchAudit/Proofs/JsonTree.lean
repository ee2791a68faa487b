-- SUMMARY: The tree of written JSON is that of the value written, whatever the layout.
import ArchAudit.Json.Decode
import ArchAudit.Proofs.DecimalText

/-!
# Trees of written values

A value has one list of tokens, and its text scans to them. Fed to the builder of
trees, they hand the value's own tree to the container that is open there. A
decoder of the whole text therefore sees just that tree.
-/

namespace ArchAudit.Json

-- ---------------------------------------------------------------------------
-- Tokens of a value
-- ---------------------------------------------------------------------------

mutual

/-- The tokens of a value, in every layout. -/
def Value.tokens : Value → List Token
  | .null => [.null]
  | .bool b => [.bool b]
  | .natural n => [.number ⟨false, n, 0, true⟩]
  | .float x => [(writtenNumeral? x).elim .null .number]
  | .string s => [.string (some s)]
  | .array items => .bracketOpen :: itemTokens items ++ [.bracketClose]
  | .object members => .braceOpen :: memberTokens members ++ [.braceClose]

def itemTokens : List Value → List Token
  | [] => []
  | [v] => v.tokens
  | v :: vs => v.tokens ++ .comma :: itemTokens vs

def memberTokens : List (String × Value) → List Token
  | [] => []
  | [(key, v)] => .string (some key) :: .colon :: v.tokens
  | (key, v) :: ms => .string (some key) :: .colon :: v.tokens ++ .comma :: memberTokens ms

end

theorem itemTokens_cons_cons (v w : Value) (vs : List Value) :
    itemTokens (v :: w :: vs) = v.tokens ++ .comma :: itemTokens (w :: vs) := rfl

theorem memberTokens_cons_cons (key : String) (v : Value) (m : String × Value)
    (ms : List (String × Value)) :
    memberTokens ((key, v) :: m :: ms) =
      .string (some key) :: .colon :: v.tokens ++ .comma :: memberTokens (m :: ms) := rfl

section Punctuation

variable (cs : List Char)

theorem tokens_bracketOpen : tokens ('[' :: cs) = .bracketOpen :: tokens cs :=
  tokens_cons rfl rfl

theorem tokens_bracketClose : tokens (']' :: cs) = .bracketClose :: tokens cs :=
  tokens_cons rfl rfl

theorem tokens_braceOpen : tokens ('\x7b' :: cs) = .braceOpen :: tokens cs :=
  tokens_cons rfl rfl

theorem tokens_braceClose : tokens ('\x7d' :: cs) = .braceClose :: tokens cs :=
  tokens_cons rfl rfl

theorem tokens_comma : tokens (',' :: cs) = .comma :: tokens cs :=
  tokens_cons rfl rfl

theorem tokens_colon : tokens (':' :: cs) = .colon :: tokens cs :=
  tokens_cons rfl rfl

end Punctuation

theorem endsNumber_nil : EndsNumber [] :=
  nofun

theorem endsNumber_comma (cs : List Char) : EndsNumber (',' :: cs) := by
  rintro c ⟨⟩
  decide

theorem endsNumber_newLine (level : Nat) (cs : List Char) : EndsNumber (newLine level ++ cs) := by
  rintro c ⟨⟩
  decide

mutual

theorem tokens_prettyChars (v : Value) (level : Nat) {rest : List Char} (hrest : EndsNumber rest) :
    tokens (v.prettyChars level ++ rest) = v.tokens ++ tokens rest := by
  match v with
  | .null => exact tokens_nullText rest
  | .bool b => exact tokens_boolText b rest
  | .natural n => exact tokens_naturalText n hrest
  | .float x => exact tokens_floatText x hrest
  | .string s => exact tokens_stringText s rest
  | .array [] =>
    simp [Value.prettyChars, Value.tokens, itemTokens, tokens_bracketOpen, tokens_bracketClose]
  | .array (v :: vs) =>
    have hitems := tokens_prettyItems (v :: vs) (level + 1) (endsNumber_newLine level (']' :: rest))
    simp only [Value.prettyChars, Value.tokens, List.append_assoc, List.cons_append,
      List.nil_append, tokens_bracketOpen, hitems, tokens_newLine, tokens_bracketClose]
  | .object [] =>
    simp [Value.prettyChars, Value.tokens, memberTokens, tokens_braceOpen, tokens_braceClose]
  | .object (m :: ms) =>
    have hmembers :=
      tokens_prettyMembers (m :: ms) (level + 1) (endsNumber_newLine level ('\x7d' :: rest))
    simp only [Value.prettyChars, Value.tokens, List.append_assoc, List.cons_append,
      List.nil_append, tokens_braceOpen, hmembers, tokens_newLine, tokens_braceClose]

theorem tokens_prettyItems (vs : List Value) (level : Nat) {rest : List Char}
    (hrest : EndsNumber rest) :
    tokens (prettyItems level vs ++ rest) = itemTokens vs ++ tokens rest := by
  match vs with
  | [] => rfl
  | [v] =>
    simp only [prettyItems, itemTokens, List.append_assoc, tokens_newLine,
      tokens_prettyChars v level hrest]
  | v :: w :: ws =>
    simp only [prettyItems, itemTokens, List.append_assoc, List.cons_append, tokens_newLine,
      tokens_prettyChars v level (endsNumber_comma _), tokens_comma,
      tokens_prettyItems (w :: ws) level hrest]

theorem tokens_prettyMembers (ms : List (String × Value)) (level : Nat) {rest : List Char}
    (hrest : EndsNumber rest) :
    tokens (prettyMembers level ms ++ rest) = memberTokens ms ++ tokens rest := by
  match ms with
  | [] => rfl
  | [(key, v)] =>
    simp only [prettyMembers, memberTokens, List.append_assoc, List.cons_append, tokens_newLine,
      tokens_stringText, tokens_colon, tokens_space (show isSpace ' ' = true from rfl),
      tokens_prettyChars v level hrest]
  | (key, v) :: m :: ms =>
    simp only [prettyMembers, memberTokens, List.append_assoc, List.cons_append, tokens_newLine,
      tokens_stringText, tokens_colon, tokens_space (show isSpace ' ' = true from rfl),
      tokens_prettyChars v level (endsNumber_comma _), tokens_comma,
      tokens_prettyMembers (m :: ms) level hrest]

end

theorem endsNumber_bracketClose (cs : List Char) : EndsNumber (']' :: cs) := by
  rintro c ⟨⟩
  decide

theorem endsNumber_braceClose (cs : List Char) : EndsNumber ('\x7d' :: cs) := by
  rintro c ⟨⟩
  decide

mutual

theorem tokens_compactChars (v : Value) {rest : List Char} (hrest : EndsNumber rest) :
    tokens (v.compactChars ++ rest) = v.tokens ++ tokens rest := by
  match v with
  | .null => exact tokens_nullText rest
  | .bool b => exact tokens_boolText b rest
  | .natural n => exact tokens_naturalText n hrest
  | .float x => exact tokens_floatText x hrest
  | .string s => exact tokens_stringText s rest
  | .array items =>
    have hitems := tokens_compactItems items (endsNumber_bracketClose rest)
    simp only [Value.compactChars, Value.tokens, List.append_assoc, List.cons_append,
      List.nil_append, tokens_bracketOpen, hitems, tokens_bracketClose]
  | .object members =>
    have hmembers := tokens_compactMembers members (endsNumber_braceClose rest)
    simp only [Value.compactChars, Value.tokens, List.append_assoc, List.cons_append,
      List.nil_append, tokens_braceOpen, hmembers, tokens_braceClose]

theorem tokens_compactItems (vs : List Value) {rest : List Char} (hrest : EndsNumber rest) :
    tokens (compactItems vs ++ rest) = itemTokens vs ++ tokens rest := by
  match vs with
  | [] => rfl
  | [v] => exact tokens_compactChars v hrest
  | v :: w :: ws =>
    simp only [compactItems, itemTokens, List.append_assoc, List.cons_append,
      tokens_compactChars v (endsNumber_comma _), tokens_comma,
      tokens_compactItems (w :: ws) hrest]

theorem tokens_compactMembers (ms : List (String × Value)) {rest : List Char}
    (hrest : EndsNumber rest) :
    tokens (compactMembers ms ++ rest) = memberTokens ms ++ tokens rest := by
  match ms with
  | [] => rfl
  | [(key, v)] =>
    simp only [compactMembers, memberTokens, List.append_assoc, List.cons_append,
      tokens_stringText, tokens_colon, tokens_compactChars v hrest]
  | (key, v) :: m :: ms =>
    simp only [compactMembers, memberTokens, List.append_assoc, List.cons_append,
      tokens_stringText, tokens_colon, tokens_compactChars v (endsNumber_comma _), tokens_comma,
      tokens_compactMembers (m :: ms) hrest]

end

-- ---------------------------------------------------------------------------
-- Tree of a value
-- ---------------------------------------------------------------------------

mutual

/-- The tree of a value. -/
def Value.node : Value → Node
  | .null => .null
  | .bool b => .bool b
  | .natural n => .number ⟨false, n, 0, true⟩
  | .float x => (writtenNumeral? x).elim .null .number
  | .string s => .string (some s)
  | .array items => .array (itemNodes items) .closed
  | .object members => .object (memberNodes members) .closed

def itemNodes : List Value → List Node
  | [] => []
  | v :: vs => v.node :: itemNodes vs

def memberNodes : List (String × Value) → List (Option String × Node)
  | [] => []
  | (key, v) :: ms => (some key, v.node) :: memberNodes ms

end

/-- What becomes of the rest of the tokens once a value has been handed over. -/
def resume (frames : List Frame) (node : Node) (rest : List Token) : Document :=
  match frames with
  | [] => run (.done node) [] rest
  | .array items :: frames => run .separator (.array (node :: items) :: frames) rest
  | .object members key :: frames =>
    run .separator (.object ((key, node) :: members) none :: frames) rest

theorem run_of_deliver {mode : Mode} {frames frames' : List Frame} {token : Token} {node : Node}
    (h : step mode frames token = deliver frames' node) (rest : List Token) :
    run mode frames (token :: rest) = resume frames' node rest := by
  rw [run, h, deliver.eq_def, resume.eq_def]
  cases frames' with
  | nil => rfl
  | cons frame frames' => cases frame <;> rfl

theorem run_of_go {mode mode' : Mode} {frames frames' : List Frame} {token : Token}
    (h : step mode frames token = .go mode' frames') (rest : List Token) :
    run mode frames (token :: rest) = run mode' frames' rest := by
  rw [run, h]

theorem Value.tokens_head (v : Value) : ∃ t ts, v.tokens = t :: ts ∧ t ≠ .bracketClose := by
  cases v with
  | float x => cases h : writtenNumeral? x <;> exact ⟨_, _, by rw [Value.tokens, h], by simp⟩
  | _ => exact ⟨_, _, rfl, by simp⟩

theorem itemTokens_head (v : Value) (vs : List Value) :
    ∃ t ts, itemTokens (v :: vs) = t :: ts ∧ t ≠ .bracketClose := by
  obtain ⟨t, ts, htokens, hne⟩ := v.tokens_head
  cases vs with
  | nil => exact ⟨t, ts, htokens, hne⟩
  | cons w ws => exact ⟨t, _, by rw [itemTokens_cons_cons, htokens]; rfl, hne⟩

/-- The first item of an array is read like any value, since it does not close it. -/
theorem run_firstItem (v : Value) (vs : List Value) (frames : List Frame) (rest : List Token) :
    run .firstItem frames (itemTokens (v :: vs) ++ rest) =
      run .value (.array [] :: frames) (itemTokens (v :: vs) ++ rest) := by
  obtain ⟨t, ts, htokens, hne⟩ := itemTokens_head v vs
  simp only [htokens, List.cons_append, run, step, if_neg hne]
  rfl

theorem run_item (v : Value) (vs : List Value) (frames : List Frame) (rest : List Token) :
    run .item frames (itemTokens (v :: vs) ++ rest) =
      run .value frames (itemTokens (v :: vs) ++ rest) := by
  obtain ⟨t, ts, htokens, hne⟩ := itemTokens_head v vs
  simp only [htokens, List.cons_append, run, step, if_neg hne]
  rfl

theorem run_firstKey (m : String × Value) (ms : List (String × Value)) (frames : List Frame)
    (rest : List Token) :
    run .firstKey frames (memberTokens (m :: ms) ++ rest) =
      run (.key []) frames (memberTokens (m :: ms) ++ rest) := by
  cases ms <;> rfl

mutual

/-- The tokens of a value hand over its tree. -/
theorem run_tokens (v : Value) (frames : List Frame) (rest : List Token) :
    run .value frames (v.tokens ++ rest) = resume frames v.node rest := by
  match v with
  | .null => exact run_of_deliver rfl rest
  | .bool b => exact run_of_deliver rfl rest
  | .natural n => exact run_of_deliver rfl rest
  | .float x =>
    rw [Value.tokens, Value.node]
    cases writtenNumeral? x <;> exact run_of_deliver rfl rest
  | .string s => exact run_of_deliver rfl rest
  | .array [] =>
    rw [Value.tokens, Value.node, itemTokens, itemNodes]
    exact (run_of_go rfl _).trans (run_of_deliver rfl rest)
  | .array (v :: vs) =>
    rw [Value.tokens, Value.node, List.append_assoc]
    refine (run_of_go rfl _).trans ?_
    rw [List.append_eq, run_firstItem]
    exact run_items (v :: vs) (by simp) [] frames rest
  | .object [] =>
    rw [Value.tokens, Value.node, memberTokens, memberNodes]
    exact (run_of_go rfl _).trans (run_of_deliver rfl rest)
  | .object (m :: ms) =>
    rw [Value.tokens, Value.node, List.append_assoc]
    refine (run_of_go rfl _).trans ?_
    rw [List.append_eq, run_firstKey]
    exact run_members (m :: ms) (by simp) [] frames rest

theorem run_items (vs : List Value) (hne : vs ≠ []) (acc : List Node) (frames : List Frame)
    (rest : List Token) :
    run .value (.array acc :: frames) (itemTokens vs ++ .bracketClose :: rest) =
      resume frames (.array (acc.reverse ++ itemNodes vs) .closed) rest := by
  match vs with
  | [] => exact absurd rfl hne
  | [v] =>
    rw [itemTokens, run_tokens v, itemNodes, itemNodes, ← List.reverse_cons]
    exact run_of_deliver rfl rest
  | v :: w :: ws =>
    have hitems := run_items (w :: ws) (by simp) (v.node :: acc) frames rest
    rw [itemTokens_cons_cons, List.append_assoc, run_tokens v, resume, itemNodes]
    refine (run_of_go rfl _).trans ?_
    rw [List.append_eq, run_item, hitems, List.reverse_cons, List.append_assoc]
    rfl

theorem run_members (ms : List (String × Value)) (hne : ms ≠ [])
    (acc : List (Option String × Node)) (frames : List Frame) (rest : List Token) :
    run (.key acc) frames (memberTokens ms ++ .braceClose :: rest) =
      resume frames (.object (acc.reverse ++ memberNodes ms) .closed) rest := by
  match ms with
  | [] => exact absurd rfl hne
  | [(key, v)] =>
    rw [memberTokens, memberNodes, memberNodes, ← List.reverse_cons]
    refine (run_of_go rfl _).trans ((run_of_go rfl _).trans ?_)
    rw [List.append_eq, run_tokens v]
    exact run_of_deliver rfl rest
  | (key, v) :: m :: ms =>
    have hmembers := run_members (m :: ms) (by simp) ((some key, v.node) :: acc) frames rest
    rw [memberTokens_cons_cons, memberNodes, List.append_assoc]
    refine (run_of_go rfl _).trans ((run_of_go rfl _).trans ?_)
    rw [List.append_eq, run_tokens v, resume]
    refine (run_of_go rfl _).trans ?_
    rw [List.append_eq, hmembers, List.reverse_cons, List.append_assoc]
    rfl

end

theorem tokens_pretty (v : Value) : tokens v.pretty.toList = v.tokens := by
  rw [Value.pretty, String.toList_ofList]
  have htokens := tokens_prettyChars v 0 endsNumber_nil
  simpa [tokens] using htokens

theorem tokens_compact (v : Value) : tokens v.compact.toList = v.tokens := by
  rw [Value.compact, String.toList_ofList]
  have htokens := tokens_compactChars v endsNumber_nil
  simpa [tokens] using htokens

/-- A text of the value's tokens is read as its tree, with nothing after it. -/
theorem ofText_of_tokens {v : Value} {text : String} (h : tokens text.toList = v.tokens) :
    Document.ofText text = ⟨v.node, false⟩ := by
  rw [Document.ofText, h]
  have hrun := run_tokens v [] []
  rwa [List.append_nil] at hrun

theorem decodeText_of_tokens {α : Type} (decode : Decoder α) {v : Value} {text : String}
    (h : tokens text.toList = v.tokens) : decodeText decode text = decode v.node := by
  rw [decodeText, ofText_of_tokens h]
  cases decode v.node <;> rfl

theorem decodeText_pretty {α : Type} (decode : Decoder α) (v : Value) :
    decodeText decode v.pretty = decode v.node :=
  decodeText_of_tokens decode (tokens_pretty v)

theorem decodeText_compact {α : Type} (decode : Decoder α) (v : Value) :
    decodeText decode v.compact = decode v.node :=
  decodeText_of_tokens decode (tokens_compact v)

end ArchAudit.Json
