import GuardedExpr.Proofs.Token.Reading

/-!
# Writing tokens

Tokens are written with single spaces between them, a string between single quotes
with a backslash in front of every backslash and single quote in it. What is so
written is read back token by token, each at the place where it was written, as a
space lets no lexeme reach over it.
-/

namespace GuardedExpr

namespace Lexeme

/-- The text with a backslash in front of every backslash and single quote. -/
def escaped : List Char → List Char
  | [] => []
  | c :: text => if c = '\\' ∨ c = '\'' then '\\' :: c :: escaped text else c :: escaped text

/-- A lexeme as it is written. -/
def rendered : TokenKind → List Char → List Char
  | .string, text => '\'' :: (escaped text ++ ['\''])
  | _, text => text

def keywords : List (List Char) :=
  ["true", "false", "null"].map String.toList

/-- The texts that a token of a kind may have. -/
inductive Writable : TokenKind → List Char → Prop
  | identifier {text : List Char} (h : IsWord text)
      (keyword : text ∉ keywords) (safe : isSafeKey (String.ofList text) = true)
      (quiet : mentionsScript text = false) : Writable .identifier text
  | number {text : List Char} (h : IsNumeral text) : Writable .number text
  | string {text : List Char} (allowed : ∀ c ∈ text, isForbiddenChar c = false) :
      Writable .string text
  | boolean {text : List Char} (h : text ∈ ["true", "false"].map String.toList) :
      Writable .boolean text
  | null : Writable .null "null".toList
  | operator {text : List Char} (h : IsOperator text) : Writable .operator text
  | mark {c : Char} {kind : TokenKind} (h : punctuation? c = some kind) : Writable kind [c]

variable {kind : TokenKind} {text : List Char}

theorem enclosed_escaped (text : List Char) : Enclosed '\'' (escaped text) := by
  induction text with
  | nil => exact .nil
  | cons c text ih =>
    rw [escaped]
    split
    case isTrue => exact .pair ih
    case isFalse plain =>
      rw [not_or] at plain
      exact .plain plain.1 plain.2 ih

theorem unescaped_escaped (text : List Char) : unescaped (escaped text) = text := by
  induction text with
  | nil => rfl
  | cons c text ih =>
    rw [escaped]
    split
    case isTrue special =>
      rw [unescaped, ih]
      rcases special with rfl | rfl <;> rfl
    case isFalse plain =>
      rw [not_or] at plain
      rw [unescaped_cons plain.1, ih]

theorem rendered_of_ne (h : kind ≠ .string) (text : List Char) :
    rendered kind text = text := by
  cases kind <;> first | rfl | exact absurd rfl h

theorem ne_string_of_punctuation? {c : Char} (h : punctuation? c = some kind) :
    kind ≠ .string := by
  rintro rfl
  exact absurd (kind_mem_of_punctuation? h) (by decide)

theorem wordKind_eq_identifier (h : text ∉ keywords) : wordKind text = .identifier := by
  have others : ¬ (text = "true".toList ∨ text = "false".toList) ∧ text ≠ "null".toList := by
    simpa [keywords, not_or, and_assoc] using h
  rw [wordKind, if_neg others.1, if_neg others.2]

theorem cut_of_keyword {word : List Char} (h : word ∈ keywords) :
    Cut word (verbatim (wordKind word) word []) := by
  have usable : Usable word := fun kind =>
    absurd kind ((by decide : ∀ word ∈ keywords, wordKind word ≠ .identifier) word h)
  have letters : IsWord word := by
    rw [keywords, List.map_cons, List.map_cons, List.map_cons, List.map_nil, List.mem_cons,
      List.mem_cons, List.mem_singleton] at h
    rcases h with rfl | rfl | rfl
    · exact ⟨'t', ['r', 'u', 'e'], rfl, by decide, by decide⟩
    · exact ⟨'f', ['a', 'l', 's', 'e'], rfl, by decide, by decide⟩
    · exact ⟨'n', ['u', 'l', 'l'], rfl, by decide, by decide⟩
  have cut := Cut.word (.of_belongs letters) usable
  rwa [List.append_nil] at cut

/-- A written lexeme is cut as what it was, as it stands. -/
theorem Writable.cut (h : Writable kind text) :
    Cut (rendered kind text) ⟨kind, text, rendered kind text, []⟩ := by
  cases h with
  | identifier h keyword safe quiet =>
    have cut := Cut.word (.of_belongs h) fun _ => ⟨safe, quiet⟩
    rw [wordKind_eq_identifier keyword] at cut
    rwa [List.append_nil] at cut
  | number h =>
    have cut := Cut.numeral (.of_belongs h)
    rwa [List.append_nil] at cut
  | string =>
    have cut : Cut _ ⟨_, _, _, []⟩ := .string (.inr rfl) (enclosed_escaped text)
    rwa [unescaped_escaped, List.append_nil] at cut
  | boolean h =>
    rw [List.map_cons, List.map_cons, List.map_nil, List.mem_cons, List.mem_singleton] at h
    rcases h with rfl | rfl <;> exact cut_of_keyword (by decide)
  | null => exact cut_of_keyword (by decide)
  | operator h =>
    have cut := Cut.operator (.of_belongs h)
    rwa [List.append_nil] at cut
  | mark h =>
    rw [rendered_of_ne (ne_string_of_punctuation? h)]
    exact .mark h

theorem isForbiddenChar_escaped (h : ∀ c ∈ text, isForbiddenChar c = false) :
    ∀ c ∈ escaped text, isForbiddenChar c = false := by
  induction text with
  | nil => exact h
  | cons c text ih =>
    obtain ⟨hc, hrest⟩ := List.forall_mem_cons.1 h
    have further : ∀ d ∈ c :: escaped text, isForbiddenChar d = false :=
      List.forall_mem_cons.2 ⟨hc, ih hrest⟩
    rw [escaped]
    split
    case isTrue => exact List.forall_mem_cons.2 ⟨by decide, further⟩
    case isFalse => exact further

theorem isForbiddenChar_of_isWordPart {c : Char} (h : isWordPart c = true) :
    isForbiddenChar c = false := by
  obtain ⟨hlow, hhigh⟩ := toNat_of_isWordPart h
  exact isForbiddenChar_eq_false (Nat.lt_of_succ_lt hlow) hhigh

theorem Writable.isForbiddenChar_rendered (h : Writable kind text) :
    ∀ c ∈ rendered kind text, isForbiddenChar c = false := by
  intro c hc
  cases h with
  | identifier h => exact isForbiddenChar_of_isWordPart (h.forall_isWordPart c hc)
  | number h =>
    rcases h.forall_mem c hc with word | sign
    · exact isForbiddenChar_of_isWordPart word
    · exact (by decide : ∀ c ∈ ['.', '+', '-'], isForbiddenChar c = false) c sign
  | string allowed =>
    rcases List.mem_cons.1 hc with rfl | inside
    · decide
    · rcases List.mem_append.1 inside with inside | last
      · exact isForbiddenChar_escaped allowed c inside
      · rw [List.mem_singleton.1 last]
        decide
  | boolean h =>
    exact (by decide : ∀ word ∈ keywords, ∀ c ∈ word, isForbiddenChar c = false) text
      ((by decide : ["true", "false"].map String.toList ⊆ keywords) h) c hc
  | null =>
    exact (by decide : ∀ c ∈ "null".toList, isForbiddenChar c = false) c hc
  | operator h =>
    rcases h with long | ⟨d, short, rfl⟩
    · exact (by decide : ∀ symbol ∈ longOperators, ∀ c ∈ symbol, isForbiddenChar c = false)
        text
        long c hc
    · rw [List.mem_singleton.1 hc]
      exact (by decide : ∀ c ∈ shortOperators, isForbiddenChar c = false) d short
  | mark h =>
    rw [rendered_of_ne (ne_string_of_punctuation? h), List.mem_singleton] at hc
    rw [hc]
    exact (by decide : ∀ c ∈ ['.', '(', ')', '[', ']', ':'], isForbiddenChar c = false) _
      (mem_of_punctuation? h)

end Lexeme

open Lexeme

namespace Token

def rendered (token : Token) : List Char :=
  Lexeme.rendered token.kind token.text.toList

def Writable (token : Token) : Prop :=
  Lexeme.Writable token.kind token.text.toList

end Token

/-- Tokens as a source, with a space between any two. -/
def rendering (tokens : List Token) : List Char :=
  List.intercalate [' '] (tokens.map Token.rendered)

/-- The tokens at the places where they stand in a rendering that starts at a place. -/
def placedFrom : Nat → List Token → List Token
  | _, [] => []
  | position, token :: tokens =>
    { token with position } :: placedFrom (position + token.rendered.length + 1) tokens

variable {limits : SourceLimits} {token : Token} {tokens : List Token}

theorem rendering_singleton (token : Token) : rendering [token] = token.rendered := by
  rw [rendering, List.map_singleton, List.intercalate_singleton]

theorem rendering_cons_cons (token next : Token) (tokens : List Token) :
    rendering (token :: next :: tokens) = token.rendered ++
      ([' '] ++ rendering (next :: tokens)) := by
  rw [rendering, List.map_cons, List.map_cons, List.intercalate_cons_cons, List.append_assoc]
  rfl

theorem length_placedFrom (position : Nat) (tokens : List Token) :
    (placedFrom position tokens).length = tokens.length := by
  induction tokens generalizing position with
  | nil => rfl
  | cons token tokens ih => exact congrArg Nat.succ (ih _)

/-- A rendered token stands at its place. -/
theorem rendered_isPrefix_drop (position : Nat) (tokens : List Token) :
    ∀ token ∈ placedFrom position tokens, position ≤ token.position ∧
      token.rendered <+: (rendering tokens).drop (token.position - position) := by
  induction tokens generalizing position with
  | nil => exact List.forall_mem_nil _
  | cons token tokens ih =>
    refine List.forall_mem_cons.2 ⟨⟨Nat.le_refl position, ?_⟩, ?_⟩
    · show token.rendered <+: (rendering (token :: tokens)).drop (position - position)
      rw [Nat.sub_self, List.drop_zero]
      cases tokens with
      | nil => exact ⟨[], by rw [List.append_nil, rendering_singleton]⟩
      | cons next tokens =>
        rw [rendering_cons_cons]
        exact List.prefix_append _ _
    · cases tokens with
      | nil => exact List.forall_mem_nil _
      | cons next tokens =>
        intro later member
        obtain ⟨behind, starts⟩ := ih _ later member
        obtain ⟨distance, place⟩ := Nat.exists_eq_add_of_le behind
        have passed : later.position - position =
            (token.rendered ++ [' ']).length + distance := by
          rw [List.length_append, List.length_singleton]
          omega
        rw [place, Nat.add_sub_cancel_left] at starts
        refine ⟨by omega, ?_⟩
        rw [passed, rendering_cons_cons, ← List.append_assoc, List.drop_length_add_append]
        exact starts

/-- A token that can be written is read where it is written. -/
theorem lexed_rendered (h : token.Writable) (position : Nat) :
    ∃ span : Span, Lexed position token.rendered [span] ∧
      span.token = { token with position } := by
  refine ⟨_, .cons (Writable.cut h) (.done (List.forall_mem_nil _)), ?_⟩
  rw [Lexeme.spanAt, String.ofList_toList]

theorem lexed_rendering (h : ∀ token ∈ tokens, token.Writable) (position : Nat) :
    ∃ spans, Lexed position (rendering tokens) spans ∧
      spans.map Span.token = placedFrom position tokens := by
  induction tokens generalizing position with
  | nil => exact ⟨[], .done (List.forall_mem_nil _), rfl⟩
  | cons token tokens ih =>
    obtain ⟨writable, others⟩ := List.forall_mem_cons.1 h
    obtain ⟨span, lexed, same⟩ := lexed_rendered writable position
    cases tokens with
    | nil =>
      rw [rendering_singleton]
      exact ⟨[span], lexed, congrArg (fun token => [token]) same⟩
    | cons next tokens =>
      obtain ⟨spans, further, placed⟩ := ih others (position + token.rendered.length + 1)
      have space : ∀ c ∈ [' '], isBlank c = true := by decide
      have seam : Seam token.rendered ([' '] ++ rendering (next :: tokens)) := by
        rintro x - y hy
        cases hy
        exact .inr (by decide)
      rw [rendering_cons_cons]
      refine ⟨span :: spans, lexed.append (further.blank_append space) seam, ?_⟩
      rw [List.map_cons, same, placed]
      rfl

theorem isForbiddenChar_rendering (h : ∀ token ∈ tokens, token.Writable) :
    ∀ c ∈ rendering tokens, isForbiddenChar c = false := by
  induction tokens with
  | nil => exact List.forall_mem_nil _
  | cons token tokens ih =>
    obtain ⟨writable, others⟩ := List.forall_mem_cons.1 h
    have first : ∀ c ∈ token.rendered, isForbiddenChar c = false :=
      writable.isForbiddenChar_rendered
    cases tokens with
    | nil =>
      rwa [rendering_singleton]
    | cons next tokens =>
      rw [rendering_cons_cons]
      exact List.forall_mem_append.2 ⟨first, List.forall_mem_cons.2 ⟨by decide, ih others⟩⟩

/-- What is written of tokens is read as the same tokens, each at the place
where it was written. -/
theorem tokenize_rendering (writable : ∀ token ∈ tokens, token.Writable)
    (few : tokens.length ≤ limits.maxTokens)
    (short : (rendering tokens).length ≤ limits.maxLength)
    (screened : screen (rendering tokens) = none) :
    tokenize (String.ofList (rendering tokens)) limits =
        .ok (placedFrom 0 tokens ++ [Token.endAt (rendering tokens).length]) ∧
      ∀ token ∈ placedFrom 0 tokens,
      token.rendered <+: (rendering tokens).drop token.position := by
  obtain ⟨spans, lexed, placed⟩ := lexed_rendering writable 0
  have count : spans.length = tokens.length := by
    rw [← List.length_map Span.token, placed, length_placedFrom]
  refine ⟨tokenize_eq_ok_iff.2 ?_, fun token member =>
    (rendered_isPrefix_drop 0 tokens token member).2⟩
  rw [String.toList_ofList, String.length_ofList]
  refine ⟨⟨short, isForbiddenChar_rendering writable, screened⟩, spans, lexed, ?_, ?_⟩
  · rwa [count]
  · rw [placed]

-- The quote in the string is written with a backslash, and read without it.
theorem tokenize_rendering_escape :
    let tokens : List Token :=
      [⟨.identifier, "name", 0⟩, ⟨.operator, "!==", 0⟩, ⟨.string, "it's", 0⟩]
    rendering tokens = "name !== 'it\\'s'".toList ∧
      tokenize "name !== 'it\\'s'" = .ok [⟨.identifier, "name", 0⟩, ⟨.operator, "!==", 5⟩,
        ⟨.string, "it's", 9⟩, Token.endAt 16] := by
  intro tokens
  have name : IsWord "name".toList := ⟨'n', ['a', 'm', 'e'], rfl, by decide, by decide⟩
  have writable : ∀ token ∈ tokens, token.Writable := by
    refine List.forall_mem_cons.2 ⟨.identifier name (by decide) (by decide) (by decide), ?_⟩
    refine List.forall_mem_cons.2 ⟨.operator (.inl (by decide)), ?_⟩
    exact List.forall_mem_singleton.2 (.string (by decide))
  exact ⟨by rfl, (tokenize_rendering writable (by decide) (by decide) (by rfl)).1⟩

end GuardedExpr
