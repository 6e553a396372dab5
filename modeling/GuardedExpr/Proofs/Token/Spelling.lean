import GuardedExpr.Proofs.Token.Reading

/-!
# Spelled lexemes

`Spelled text lexemes` says into which lexemes a text is cut, with all that they take up of
it but without their places. A text spells one list of lexemes. A lexeme that is a text by
itself is cut in the same way in front of more text, if that brings nothing, a separator,
or a point with a word behind it: such a point makes no numeral longer.
-/

namespace GuardedExpr

open Lexeme

namespace Lexeme

/-- The lexeme without what stands behind it. -/
def alone (lexeme : Lexeme) : Lexeme :=
  { lexeme with rest := [] }

/-- The lexeme as a token at no place in particular. -/
def token (lexeme : Lexeme) : Token :=
  ⟨lexeme.kind, String.ofList lexeme.text, 0⟩

end Lexeme

/-- The text is cut into these lexemes, with white space between them. -/
inductive Spelled : List Char → List Lexeme → Prop
  | done {gap : List Char} (blank : ∀ c ∈ gap, isBlank c = true) : Spelled gap []
  | next {gap front : List Char} {lexeme : Lexeme} {lexemes : List Lexeme}
      (blank : ∀ c ∈ gap, isBlank c = true) (cut : Cut front lexeme)
      (behind : Spelled lexeme.rest lexemes) :
      Spelled (gap ++ front) (lexeme.alone :: lexemes)

variable {text front more : List Char} {lexeme : Lexeme} {lexemes others : List Lexeme}

/-! ## One reading -/

theorem dropWhile_eq_nil_of_isBlank (blank : ∀ c ∈ text, isBlank c = true) :
    text.dropWhile isBlank = [] := by
  have empty : ∀ c ∈ ([] : List Char).head?, isBlank c = false := fun _ none => nomatch none
  have none := dropWhile_isBlank blank empty
  rwa [List.append_nil] at none

/-- All that a text can spell: nothing, or what the reader cuts from its front and what
is spelled behind that. -/
theorem Spelled.exists_lexeme? (h : Spelled text lexemes) :
    (text.dropWhile isBlank = [] ∧ lexemes = []) ∨
      ∃ c rest lexeme further, text.dropWhile isBlank = c :: rest ∧
        lexeme? c rest = .ok lexeme ∧
        Spelled lexeme.rest further ∧ lexemes = lexeme.alone :: further := by
  cases h with
  | done blank => exact .inl ⟨dropWhile_eq_nil_of_isBlank blank, rfl⟩
  | next blank cut behind =>
    obtain ⟨c, rest, rfl, read⟩ := exists_lexeme?_of_cut cut
    exact .inr ⟨c, rest, _, _, dropWhile_isBlank blank cut.isBlank_head?, read, behind, rfl⟩

/-- A text spells one list of lexemes. -/
theorem Spelled.unique (h : Spelled text lexemes) (h' : Spelled text others) :
    lexemes = others := by
  induction h generalizing others with
  | done blank =>
    have none := dropWhile_eq_nil_of_isBlank blank
    rcases h'.exists_lexeme? with ⟨-, rfl⟩ | ⟨c, rest, lexeme, further, first, -⟩
    · rfl
    · rw [none] at first
      cases first
  | next blank cut behind ih =>
    obtain ⟨c, rest, rfl, read⟩ := exists_lexeme?_of_cut cut
    have visible := dropWhile_isBlank blank cut.isBlank_head?
    rcases h'.exists_lexeme? with
      ⟨first, -⟩ | ⟨d, rest', lexeme', further, first, read', behind', rfl⟩
    · rw [visible] at first
      cases first
    · rw [visible] at first
      obtain ⟨rfl, rfl⟩ := List.cons.inj first
      rw [read] at read'
      obtain rfl := Except.ok.inj read'
      rw [ih behind']

/-- What a text spells is what it reads as, at any place. -/
theorem Spelled.lexed (h : Spelled text lexemes) (position : Nat) :
    ∃ spans, Lexed position text spans ∧
      spans.map Span.content = (lexemes.map Lexeme.token).map Token.content := by
  induction h generalizing position with
  | done blank => exact ⟨[], .done blank, rfl⟩
  | @next gap front lexeme lexemes blank cut behind ih =>
    obtain ⟨spans, lexed, same⟩ := ih (position + gap.length + lexeme.source.length)
    refine ⟨_, .next blank cut lexed, ?_⟩
    rw [List.map_cons, List.map_cons, List.map_cons, same]
    rfl

/-! ## More text behind a lexeme -/

/-- The text continues no lexeme that is complete in front of it. -/
def Stops (more : List Char) : Prop :=
  (∀ c ∈ more.head?, isSeparator c = true) ∨
    ∃ c rest, more = '.' :: c :: rest ∧ isWordStart c = true

theorem stops_nil : Stops [] :=
  .inl fun _ none => nomatch none

theorem stops_cons {c : Char} (h : isSeparator c = true) (rest : List Char) :
    Stops (c :: rest) := by
  refine .inl ?_
  rintro _ ⟨⟩
  exact h

theorem stops_space (rest : List Char) : Stops (' ' :: rest) :=
  stops_cons (by decide) rest

theorem stops_point {word : List Char} (h : IsWord word) (rest : List Char) :
    Stops ('.' :: (word ++ rest)) := by
  obtain ⟨c, parts, rfl, start, -⟩ := h
  exact .inr ⟨c, parts ++ rest, rfl, start⟩

namespace Lexeme

theorem point_notMem_of_isDigits {digits : List Char} (h : IsDigits digits) : '.' ∉ digits :=
  fun point => absurd (h.2 '.' point) (by decide)

theorem point_notMem_of_isExponent {power : List Char} (h : IsExponent power) :
    '.' ∉ power := by
  cases h with
  | none => exact List.not_mem_nil
  | @some mark sign digits hmark hsign hdigits =>
    rw [List.mem_cons, List.mem_append, not_or, not_or]
    refine ⟨?_, ?_, point_notMem_of_isDigits hdigits⟩
    · rcases hmark with rfl | rfl <;> decide
    · cases hsign <;> decide

theorem point_notMem_of_isWord {word : List Char} (h : IsWord word) : '.' ∉ word :=
  fun point => absurd (h.forall_isWordPart '.' point) (by decide)

theorem point_notMem_of_isOperator {symbol : List Char} (h : IsOperator symbol) :
    '.' ∉ symbol := by
  rcases h with long | ⟨c, short, rfl⟩
  · exact (by decide : ∀ symbol ∈ longOperators, '.' ∉ symbol) symbol long
  · exact (by decide : ∀ c ∈ shortOperators, '.' ∉ [c]) c short

/-- Behind the point of a numeral stands a digit. -/
theorem IsNumeral.digit_behind_point {before after : List Char}
    (h : IsNumeral (before ++ '.' :: after)) :
    ∃ digit ∈ after.head?, digit.isDigit = true := by
  obtain ⟨whole, part, power, hwhole, hpart, hpower, split⟩ := h
  have point : '.' ∈ before ++ '.' :: after := List.mem_append_right _ List.mem_cons_self
  cases hpart with
  | none =>
    rw [split, List.append_nil, List.mem_append] at point
    exact absurd point
      (not_or.2 ⟨point_notMem_of_isDigits hwhole, point_notMem_of_isExponent hpower⟩)
  | @some digits hdigits =>
    have tail : '.' ∉ digits ++ power := by
      rw [List.mem_append, not_or]
      exact ⟨point_notMem_of_isDigits hdigits, point_notMem_of_isExponent hpower⟩
    rw [List.append_assoc, List.cons_append] at split
    rcases List.append_eq_append_iff.1 split with
      ⟨further, rfl, behind⟩ | ⟨further, rfl, behind⟩
    · cases further with
      | nil =>
        obtain ⟨-, rfl⟩ := List.cons.inj behind
        obtain ⟨d, run, rfl⟩ := List.exists_cons_of_ne_nil hdigits.1
        exact ⟨d, rfl, hdigits.2 d List.mem_cons_self⟩
      | cons d further =>
        obtain ⟨rfl, -⟩ := List.cons.inj behind
        exact absurd (List.mem_append_right before List.mem_cons_self)
          (point_notMem_of_isDigits hwhole)
    · cases further with
      | nil =>
        obtain ⟨-, rfl⟩ := List.cons.inj behind
        obtain ⟨d, run, rfl⟩ := List.exists_cons_of_ne_nil hdigits.1
        exact ⟨d, rfl, hdigits.2 d List.mem_cons_self⟩
      | cons d further =>
        obtain ⟨-, same⟩ := List.cons.inj behind
        refine absurd ?_ tail
        rw [same]
        exact List.mem_append_right further List.mem_cons_self

/-- A text without a point that starts in front of one ends in front of it. -/
theorem isPrefix_of_point {other : List Char} (nonempty : text ≠ []) (h : '.' ∉ other)
    (starts : other <+: text ++ '.' :: more) : other <+: text := by
  refine isPrefix_of_seam starts nonempty ?_
  rintro x - _ ⟨⟩ -
  exact h

theorem isPrefix_of_isNumeral {other : List Char} {c : Char} {rest : List Char}
    (h : IsNumeral other) (start : isWordStart c = true)
    (starts : other <+: text ++ '.' :: c :: rest) : other <+: text := by
  rcases List.prefix_or_prefix_of_prefix starts (List.prefix_append _ _) with
    inside | ⟨beyond, rfl⟩
  · exact inside
  · have behind := (List.prefix_append_right_inj text).1 starts
    cases beyond with
    | nil => exact ⟨[], by rw [List.append_nil, List.append_nil]⟩
    | cons d beyond =>
      obtain ⟨rfl, further⟩ := List.cons_prefix_cons.1 behind
      obtain ⟨digit, first, isDigit⟩ := h.digit_behind_point
      cases beyond with
      | nil => cases first
      | cons d beyond =>
        cases first
        obtain ⟨rfl, -⟩ := List.cons_prefix_cons.1 further
        rw [(not_isDigit_of_isWordStart start).1] at isDigit
        cases isDigit

/-- What is cut as a whole text is cut from it also where more stands
behind that stops it. -/
theorem Cut.before (h : Cut front lexeme) (whole : lexeme.rest = []) (stops : Stops more) :
    Cut (front ++ more) { lexeme with rest := more } := by
  have source : front = lexeme.source := by
    rw [h.split, whole, List.append_nil]
  have nonempty := h.source_ne_nil
  rw [source]
  rcases stops with separated | ⟨c, rest, rfl, start⟩
  · refine h.transfer fun other solid starts => ?_
    rw [source]
    exact solid.isPrefix_of_seam (fun _ _ y hy => .inr (separated y hy)) nonempty starts
  · cases h with
    | numeral h =>
      exact .numeral ⟨h.belongs, List.prefix_append _ _, fun other belongs starts =>
        (isPrefix_of_isNumeral belongs start starts).length_le⟩
    | word h usable =>
      exact .word ⟨h.belongs, List.prefix_append _ _, fun other belongs starts =>
        (isPrefix_of_point nonempty (point_notMem_of_isWord belongs) starts).length_le⟩
        usable
    | operator h =>
      exact .operator ⟨h.belongs, List.prefix_append _ _, fun other belongs starts =>
        (isPrefix_of_point nonempty (point_notMem_of_isOperator belongs) starts).length_le⟩
    | mark h => exact .mark h
    | string hquote h => exact .string hquote h

end Lexeme

/-! ## Putting lexemes in front -/

theorem spelled_nil : Spelled [] [] :=
  .done (List.forall_mem_nil _)

theorem Spelled.cons (lexeme : Lexeme) (cut : Cut front { lexeme with rest := more })
    (behind : Spelled more lexemes) : Spelled front (lexeme.alone :: lexemes) := by
  have next : Spelled ([] ++ front) (_ :: lexemes) :=
    .next (List.forall_mem_nil _) cut behind
  exact next

/-- A lexeme that is a text by itself may stand in front of what stops it. -/
theorem Spelled.cons_of_stops (cut : Cut front lexeme) (whole : lexeme.rest = [])
    (stops : Stops more) (behind : Spelled more lexemes) :
    Spelled (front ++ more) (lexeme :: lexemes) := by
  have spelled := Spelled.cons lexeme (cut.before whole stops) behind
  rwa [alone, ← whole] at spelled

theorem Spelled.mark {c : Char} {kind : TokenKind} (h : punctuation? c = some kind)
    (behind : Spelled more lexemes) :
    Spelled (c :: more) (verbatim kind [c] [] :: lexemes) :=
  .cons (verbatim kind [c] []) (.mark h) behind

theorem Spelled.space (behind : Spelled more lexemes) : Spelled (' ' :: more) lexemes := by
  cases behind with
  | done blank => exact .done (List.forall_mem_cons.2 ⟨by decide, blank⟩)
  | next blank cut further =>
    rw [← List.cons_append]
    exact .next (List.forall_mem_cons.2 ⟨by decide, blank⟩) cut further

end GuardedExpr
