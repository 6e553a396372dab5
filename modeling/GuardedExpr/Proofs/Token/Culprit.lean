import GuardedExpr.Proofs.Token.Limits
import GuardedExpr.Proofs.Token.Pattern
import GuardedExpr.Proofs.Token.Reading

/-!
# What a fault of the lexer points at

A scan stops at the first place where no lexeme stands. Neither a lexeme nor a forbidden
pattern looks further than its own end, so what is in front of that place is tokenized on
its own, into the tokens that were scanned. What stands at the place is a character that
starts no lexeme, or a quote that is not closed.
-/

namespace GuardedExpr

open Lexeme

variable {limits : SourceLimits} {source : String} {text more : List Char}
  {position place : Nat}
  {c : Char} {rest : List Char} {cause : LexCause} {fault : Fault}

/-! ## The front of a source -/

theorem Clean.of_append {before : Option Char} (h : Clean before (text ++ more)) :
    Clean before text := by
  rintro ⟨front, part, rest, rfl, bad⟩
  exact h ⟨front, part, rest ++ more, by simp, bad⟩

/-- The front of a source that may be scanned may be scanned. -/
theorem Admissible.of_append (h : Admissible limits (text ++ more)) :
    Admissible limits text where
  short := Nat.le_trans (List.prefix_append text more).length_le h.short
  allowed := (List.forall_mem_append.1 h.allowed).1
  screened := screen_eq_none_iff.2 (screen_eq_none_iff.1 h.screened).of_append

/-! ## Where no lexeme stands -/

theorem eq_of_ofWord_eq_error {word : List Char} {missing : NoLexeme}
    (h : ofWord word rest = .error missing) :
    missing = .forbiddenIdentifier (String.ofList word) := by
  rw [ofWord] at h
  split at h
  · cases h
  · split at h
    · cases h
    · split at h
      · exact (Except.error.inj h).symm
      · cases h

theorem eq_of_ofSymbol_eq_error {missing : NoLexeme} (h : ofSymbol c rest = .error missing) :
    missing = .unexpectedCharacter c := by
  rw [ofSymbol] at h
  split at h
  · cases h
  · split at h
    · cases h
    · split at h
      · cases h
      · exact (Except.error.inj h).symm

/-- No lexeme stands at a quote that is not closed, at a word that may not be used, and at
a character that starts none. -/
theorem lexeme?_eq_error {missing : NoLexeme} (h : lexeme? c rest = .error missing) :
    ((c = '"' ∨ c = '\'') ∧ closeString? c rest = none ∧ missing = .unterminatedString) ∨
      (∃ word, missing = .forbiddenIdentifier word) ∨ missing = .unexpectedCharacter c := by
  rw [lexeme?] at h
  split at h
  case isTrue => cases h
  case isFalse =>
    split at h
    case isTrue quoted =>
      rw [Bool.or_eq_true, beq_iff_eq, beq_iff_eq] at quoted
      split at h
      case h_1 => cases h
      case h_2 unclosed => exact .inl ⟨quoted, unclosed, (Except.error.inj h).symm⟩
    case isFalse =>
      split at h
      case isTrue => exact .inr (.inl ⟨_, eq_of_ofWord_eq_error h⟩)
      case isFalse => exact .inr (.inr (eq_of_ofSymbol_eq_error h))

/-- Behind a string that is not closed every quote of its kind is escaped. -/
theorem isEscaped_of_closeString?_eq_none {quote : Char} (unescapable : quote ≠ '\\')
    (h : closeString? quote text = none) :
    ∀ i, text[i]? = some quote → IsEscaped text i := by
  fun_induction closeString? quote text with
  | case1 =>
    intro i here
    cases here
  | case2 =>
    intro i here
    cases i with
    | zero => exact absurd (Option.some.inj here).symm unescapable
    | succ i => cases here
  | case3 c rest ih =>
    rw [Option.map_eq_none_iff] at h
    intro i here
    rcases i with _ | _ | i
    · exact absurd (Option.some.inj here).symm unescapable
    · exact (by decide : backslashes ['\\'] % 2 = 1)
    · rw [Nat.add_comm _ 2]
      exact (isEscaped_append (backslashes_pair c) rest i).2 (ih h i here)
  | case4 => cases h
  | case5 c rest notLone notPair notQuote ih =>
    rw [Option.map_eq_none_iff] at h
    have plain : c ≠ '\\' := by
      rintro rfl
      cases rest with
      | nil => exact notLone rfl rfl
      | cons d rest => exact notPair d rest rfl rfl
    intro i here
    cases i with
    | zero => exact absurd (beq_iff_eq.2 (Option.some.inj here)) notQuote
    | succ i =>
      rw [Nat.add_comm]
      exact (isEscaped_append (backslashes_singleton plain) rest i).2 (ih h i here)

/-! ## Where a scan stops -/

/-- Every lexeme that a scan begins to read starts inside of the text. -/
theorem lt_of_mem_starts {all : List Char} {fuel : Nat} :
    ∀ start ∈ (scanFreely all fuel position text).starts,
      start < position + text.length := by
  induction fuel generalizing position text with
  | zero => exact List.forall_mem_nil _
  | succ fuel ih =>
    have split : (text.takeWhile isBlank).length + (text.dropWhile isBlank).length =
        text.length := by
      rw [← List.length_append, List.takeWhile_append_dropWhile]
    rw [scanFreely]
    cases front : text.dropWhile isBlank with
    | nil => exact List.forall_mem_nil _
    | cons c rest =>
      rw [front] at split
      have inside : position + (text.takeWhile isBlank).length < position + text.length := by
        rw [List.length_cons] at split
        omega
      cases read : lexeme? c rest with
      | error missing =>
        simp only [read]
        exact List.forall_mem_singleton.2 inside
      | ok lexeme =>
        rw [(cut_of_lexeme? read).split, List.length_append] at split
        simp only [read, Scan.starts_cons]
        refine List.forall_mem_cons.2 ⟨inside, fun start later => ?_⟩
        have further := ih start later
        omega

/-- A scan that stops has read what is in front of the place, and there no lexeme stands. -/
theorem exists_lexed_of_stuck {all : List Char} {fuel start : Nat} {tokens : List Token}
    (h : scanFreely all fuel position text = .stuck tokens start fault) :
    ∃ front c rest spans missing, text = front ++ c :: rest ∧
      start = position + front.length ∧
      Lexed position front spans ∧ tokens = spans.map Span.token ∧ isBlank c = false ∧
      lexeme? c rest = .error missing ∧ fault = missing.fault all start := by
  induction fuel generalizing position text tokens with
  | zero => cases h
  | succ fuel ih =>
    have split : text.takeWhile isBlank ++ text.dropWhile isBlank = text :=
      List.takeWhile_append_dropWhile
    have blank : ∀ c ∈ text.takeWhile isBlank, isBlank c = true :=
      List.all_eq_true.1 List.all_takeWhile
    have visible := List.head?_dropWhile_not isBlank text
    rw [scanFreely] at h
    cases front : text.dropWhile isBlank with
    | nil =>
      rw [front] at h
      cases h
    | cons c rest =>
      rw [front] at h split visible
      cases read : lexeme? c rest with
      | error missing =>
        simp only [read] at h
        cases h
        exact ⟨_, c, rest, [], missing, split.symm, rfl, .done blank, rfl, visible,
          read, rfl⟩
      | ok lexeme =>
        simp only [read] at h
        cases further : scanFreely all fuel
            (position + (text.takeWhile isBlank).length + lexeme.source.length)
            lexeme.rest with
        | complete =>
          rw [further] at h
          cases h
        | stuck tokens' start' fault' =>
          rw [further] at h
          cases h
          obtain ⟨front', d, rest', spans, missing, behind, rfl, lexed, rfl, visible',
            stops, same⟩ :=
            ih further
          have cut := cut_of_lexeme? read
          -- What is cut from the text is cut from its front as well, as that goes
          -- on behind the lexeme.
          have shorter : Cut (lexeme.source ++ front') { lexeme with rest := front' } := by
            refine cut.transfer fun other _ starts => starts.trans ?_
            rw [cut.split, behind]
            exact (List.prefix_append_right_inj _).2 (List.prefix_append front' (d :: rest'))
          refine ⟨text.takeWhile isBlank ++ (lexeme.source ++ front'), d, rest',
            _, missing, ?_, ?_, .next blank shorter lexed, rfl, visible', stops, same⟩
          · rw [List.append_assoc, List.append_assoc, ← behind, ← cut.split, split]
          · rw [List.length_append, List.length_append, ← Nat.add_assoc, ← Nat.add_assoc]

/-- What is in front of the place is tokenized on its own, into the tokens that are scanned
before the source fails there. -/
def ReadsUpTo (limits : SourceLimits) (source : String) (place : Nat) (fault : Fault) :
    Prop :=
  ∃ tokens, tokenizeFreely source limits.maxLength = .ok (.stuck tokens place fault) ∧
    tokenize (String.ofList (source.toList.take place)) limits =
      .ok (tokens ++ [.endAt place])

/-- A fault that is found before the scan is the length or a character, and lies
inside of the source. -/
theorem of_checkSource_eq_error (h : checkSource limits text = .error (.lex cause place)) :
    place < text.length ∧
      ((∃ limit, cause = .tooLong limit) ∨ ∃ d, cause = .forbiddenCharacter d) := by
  rw [checkSource] at h
  split at h
  case isTrue long =>
    cases h
    exact ⟨long, .inl ⟨_, rfl⟩⟩
  case isFalse =>
    split at h
    case h_1 d found =>
      cases h
      have there : ∃ c ∈ text, isForbiddenChar c = true :=
        ⟨d, List.mem_of_find?_eq_some found, List.find?_some found⟩
      exact ⟨List.findIdx_lt_length_of_exists there, .inr ⟨d, rfl⟩⟩
    case h_2 =>
      split at h <;> cases h

theorem tokenizeFreely_eq_ok {whole : Scan}
    (h : tokenizeFreely source limits.maxLength = .ok whole) :
    Admissible limits source.toList ∧
      whole = scanFreely source.toList source.length 0 source.toList := by
  rw [tokenizeFreely] at h
  split at h
  case h_1 => cases h
  case h_2 checked =>
    obtain ⟨short, allowed, screened⟩ := checkSource_eq_ok_iff.1 checked
    exact ⟨⟨short, allowed, screened⟩, (Except.ok.inj h).symm⟩

/-- The lexer refuses a source before the scan, or at the start of a lexeme that is one too
many, or where no lexeme stands. -/
theorem tokenize_eq_lex_error (h : tokenize source limits = .error (.lex cause place)) :
    (place < source.length ∧
      ((∃ limit, cause = .tooLong limit) ∨ ∃ d, cause = .forbiddenCharacter d)) ∨
    (place < source.length ∧ ∃ limit, cause = .tooManyTokens limit) ∨
    ∃ tokens start, tokenizeFreely source limits.maxLength =
      .ok (.stuck tokens start (.lex cause place)) ∧ tokens.length < limits.maxTokens := by
  obtain ⟨maxLength, maxTokens⟩ := limits
  cases free : tokenizeFreely source maxLength with
  | error fault =>
    rw [tokenize_of_refused free] at h
    cases h
    rw [tokenizeFreely] at free
    split at free
    case h_1 refused =>
      cases free
      rw [← String.length_toList]
      exact .inl (of_checkSource_eq_error refused)
    case h_2 => cases free
  | ok whole =>
    rw [tokenize_of_scanned free, Scan.capped] at h
    split at h
    case h_1 start there =>
      cases h
      obtain ⟨-, rfl⟩ := @tokenizeFreely_eq_ok ⟨maxLength, maxTokens⟩ _ _ free
      have inside := lt_of_mem_starts place (List.mem_of_getElem? there)
      rw [Nat.zero_add, String.length_toList] at inside
      exact .inr (.inl ⟨inside, _, rfl⟩)
    case h_2 few =>
      cases whole with
      | complete => cases h
      | stuck tokens start fault =>
        cases h
        rw [List.getElem?_eq_none_iff, Scan.starts, List.length_append,
          List.length_map] at few
        exact .inr (.inr ⟨tokens, start, rfl, few⟩)

/-- Where a scan stops, the source is read up to there, and a character follows at
which no lexeme stands. -/
theorem exists_missing_of_stuck {tokens : List Token} {start : Nat}
    (free : tokenizeFreely source limits.maxLength = .ok (.stuck tokens start fault))
    (few : tokens.length < limits.maxTokens) :
    ∃ front c rest missing, source.toList = front ++ c :: rest ∧ start = front.length ∧
      isBlank c = false ∧ lexeme? c rest = .error missing ∧
      fault = missing.fault source.toList start ∧ ReadsUpTo limits source start fault := by
  obtain ⟨admissible, whole⟩ := tokenizeFreely_eq_ok free
  obtain ⟨front, c, rest, spans, missing, split, rfl, lexed, rfl, visible, stops, same⟩ :=
    exists_lexed_of_stuck whole.symm
  rw [Nat.zero_add] at free same ⊢
  rw [split] at admissible
  refine ⟨front, c, rest, missing, split, rfl, visible, stops, same, _, free, ?_⟩
  rw [List.length_map] at few
  refine tokenize_eq_ok_iff.2 ?_
  rw [split, List.take_left, String.toList_ofList, String.length_ofList]
  exact ⟨admissible.of_append, spans, lexed, Nat.le_of_lt few, rfl⟩

/-! ## What the message shows -/

/-- White space is shown as spaces. -/
def shown (c : Char) : Char :=
  if isBlank c then ' ' else c

theorem shown_ne_newline (c : Char) : shown c ≠ '\n' := by
  rw [shown]
  split
  case isTrue => decide
  case isFalse visible =>
    rintro rfl
    exact visible (by decide)

/-- The line around a place is what stands within the radius of it, inside of the source. -/
theorem line_around (text : List Char) (place : Nat) : (Excerpt.around text place).line =
    ((text.take (min (place + 21) text.length)).drop (place - 20)).map shown := by
  rw [← List.take_eq_take_min, List.drop_take]
  rfl

theorem caret_around (text : List Char) (place : Nat) :
    (Excerpt.around text place).caret = place - (place - 20) := rfl

/-- In the line the character stands above the caret. -/
theorem line_around_getElem? (here : text[place]? = some c) (visible : isBlank c = false) :
    (Excerpt.around text place).line[(Excerpt.around text place).caret]? = some c := by
  have inside := (List.getElem?_eq_some_iff.1 here).1
  have back : place - 20 + (place - (place - 20)) = place := by omega
  rw [caret_around, line_around, List.getElem?_map, List.getElem?_drop, back,
    List.getElem?_take_of_lt (by omega), here, Option.map_some, shown, visible]
  rfl

/-- An excerpt is two lines, each behind two spaces. -/
theorem toList_render (excerpt : Excerpt) : excerpt.render.toList =
    ' ' :: ' ' :: excerpt.line ++ '\n' ::
      (List.replicate (2 + excerpt.caret) ' ' ++ ['^']) := by
  rw [Excerpt.render, String.toList_append, String.toList_append, String.toList_append,
    String.toList_append, @String.toList_ofList excerpt.line,
    @String.toList_ofList (List.replicate excerpt.caret ' '), List.replicate_add]
  simp

/-- Three lines without a line break in them are the lines of the text that they make. -/
theorem splitOn_three {first second third : List Char} (hfirst : '\n' ∉ first)
    (hsecond : '\n' ∉ second) (hthird : '\n' ∉ third) :
    (first ++ '\n' :: (second ++ '\n' :: third)).splitOn '\n' = [first, second, third] := by
  have joined : first ++ '\n' :: (second ++ '\n' :: third) =
      ['\n'].intercalate [first, second, third] := by
    simp [List.intercalate]
  rw [joined]
  refine List.splitOn_intercalate '\n' ?_ (List.cons_ne_nil _ _)
  simp only [List.forall_mem_cons]
  exact ⟨hfirst, hsecond, hthird, List.forall_mem_nil _⟩

/-- The message has three lines: what it is about, the line around the
place, and the caret. -/
theorem lines_message_unexpectedCharacter (visible : isBlank c = false) (text : List Char)
    (place : Nat) :
    (LexCause.unexpectedCharacter c (.around text place)).message.toList.splitOn '\n' =
      ["unexpected character '".toList ++ [c, '\''],
        ' ' :: ' ' :: (Excerpt.around text place).line,
        List.replicate (2 + (Excerpt.around text place).caret) ' ' ++ ['^']] := by
  have newline : '\n' ∉ "unexpected character '".toList ++ [c, '\''] := by
    rw [List.mem_append, not_or]
    refine ⟨by decide, fun member => ?_⟩
    rcases List.mem_cons.1 member with rfl | other
    · cases visible
    · cases List.mem_singleton.1 other
  have line : '\n' ∉ ' ' :: ' ' :: (Excerpt.around text place).line := by
    simp only [List.mem_cons, line_around, List.mem_map]
    rintro (space | space | ⟨d, -, same⟩)
    · cases space
    · cases space
    · exact shown_ne_newline d same
  have caret :
      '\n' ∉ List.replicate (2 + (Excerpt.around text place).caret) ' ' ++ ['^'] := by
    simp
  rw [← splitOn_three newline line caret]
  show ("unexpected character '" ++ String.singleton c ++ "'\n" ++
    Excerpt.render _).toList.splitOn '\n' = _
  rw [String.toList_append, toList_render, String.toList_append, String.toList_append,
    String.toList_singleton, List.append_assoc, List.append_assoc]
  rfl

/-! ## The faults of the lexer -/

/-- Every fault of the lexer lies inside of the source. Where it is for a character,
that is the character there and no white space, what is in front of it is tokenized on
its own into the tokens scanned, and the message names it and shows up to 20 characters
on each side of it, with a caret under it. Where it is for a string, a quote stands
there, behind which every quote of its kind is escaped, and in front of which the source
is tokenized on its own. -/
theorem lexer_points_at_culprit
    (failed : tokenize source limits = .error (.lex cause place)) :
    place ≤ source.length ∧
    (∀ c excerpt, cause = .unexpectedCharacter c excerpt →
      source.toList[place]? = some c ∧ isBlank c = false ∧
      ReadsUpTo limits source place (.lex cause place) ∧
      ∃ shows column, cause.message.toList.splitOn '\n' =
          ["unexpected character '".toList ++ [c, '\''], ' ' :: ' ' :: shows,
            List.replicate (2 + column) ' ' ++ ['^']] ∧
        shows = ((source.toList.take (min (place + 21) source.length)).drop
          (place - 20)).map shown ∧
        column = place - (place - 20) ∧ shows[column]? = some c) ∧
    (cause = .unterminatedString → ∃ quote, (quote = '"' ∨ quote = '\'') ∧
      source.toList[place]? = some quote ∧
      (∀ i, (source.toList.drop (place + 1))[i]? = some quote →
        IsEscaped (source.toList.drop (place + 1)) i) ∧
      ReadsUpTo limits source place (.lex cause place)) := by
  rcases tokenize_eq_lex_error failed with
    ⟨inside, early⟩ | ⟨inside, limit, rfl⟩ | ⟨tokens, start, free, few⟩
  · refine ⟨Nat.le_of_lt inside, ?_, ?_⟩
    · rintro c excerpt rfl
      rcases early with ⟨_, other⟩ | ⟨_, other⟩ <;> cases other
    · rintro rfl
      rcases early with ⟨_, other⟩ | ⟨_, other⟩ <;> cases other
  · exact ⟨Nat.le_of_lt inside, nofun, nofun⟩
  · obtain ⟨front, c, rest, missing, split, rfl, visible, stops, same, reads⟩ :=
      exists_missing_of_stuck free few
    have here : source.toList[front.length]? = some c := by
      rw [split, List.getElem?_append_right (Nat.le_refl _), Nat.sub_self]
      rfl
    have behind : source.toList.drop (front.length + 1) = rest := by
      rw [split, ← List.drop_drop, List.drop_left]
      rfl
    have inside : front.length ≤ source.length := by
      rw [← String.length_toList, split]
      exact (List.prefix_append _ _).length_le
    rcases lexeme?_eq_error stops with ⟨quoted, unclosed, rfl⟩ | ⟨word, rfl⟩ | rfl
    · cases same
      refine ⟨inside, nofun, fun _ => ⟨c, quoted, here, ?_, reads⟩⟩
      have unescapable : c ≠ '\\' := by
        rcases quoted with rfl | rfl <;> decide
      rw [behind]
      exact isEscaped_of_closeString?_eq_none unescapable unclosed
    · cases same
    · cases same
      refine ⟨inside, ?_, nofun⟩
      rintro d excerpt ⟨rfl, rfl⟩
      refine ⟨here, visible, reads, _, _,
        lines_message_unexpectedCharacter visible _ _, ?_, rfl,
        line_around_getElem? here visible⟩
      rw [line_around, String.length_toList]

-- The line break in front of the character is shown as a space.
theorem lexer_points_at_culprit_number_sign :
    let cause : LexCause := .unexpectedCharacter '#' ⟨"a + # b".toList, 4⟩
    tokenize "a +\n# b" = .error (.lex cause 4) ∧
      ReadsUpTo {} "a +\n# b" 4 (.lex cause 4) ∧
      tokenize "a +\n" = .ok [⟨.identifier, "a", 0⟩, ⟨.operator, "+", 2⟩, .endAt 4] ∧
      cause.message.toList.splitOn '\n' =
        ["unexpected character '#'".toList, "  a + # b".toList, "      ^".toList] := by
  intro cause
  have failed : tokenize "a +\n# b" = .error (.lex cause 4) := by rfl
  obtain ⟨-, unexpected, -⟩ := lexer_points_at_culprit failed
  obtain ⟨-, -, reads, shows, column, lines, rfl, rfl, -⟩ := unexpected _ _ rfl
  exact ⟨failed, reads, by rfl, lines⟩

end GuardedExpr
