import GuardedExpr.Proofs.Token.Separator
import GuardedExpr.Proofs.Token.Tiling

/-!
# What is cut from a text

`Cut front lexeme` says without the reader which lexeme stands at the front of a text:
the longest of its class, or a string up to its closing quote. `lexeme?_eq_ok_iff`
says that the reader cuts exactly these. As no class has a text with separators, a
lexeme is cut in the same way wherever the text behind it brings no separator-free
text that could make it longer.
-/

namespace GuardedExpr.Lexeme

/-- A word may be used: as a keyword, or as an identifier that is safe
and mentions no script. -/
def Usable (word : List Char) : Prop :=
  wordKind word = .identifier → isSafeKey (String.ofList word) = true ∧
    mentionsScript word = false

inductive Cut : List Char → Lexeme → Prop
  | numeral {source rest : List Char} (h : Longest IsNumeral source (source ++ rest)) :
      Cut (source ++ rest) (verbatim .number source rest)
  | word {source rest : List Char} (h : Longest IsWord source (source ++ rest))
      (usable : Usable source) :
      Cut (source ++ rest) (verbatim (wordKind source) source rest)
  | operator {source rest : List Char} (h : Longest IsOperator source (source ++ rest)) :
      Cut (source ++ rest) (verbatim .operator source rest)
  | mark {c : Char} {kind : TokenKind} {rest : List Char} (h : punctuation? c = some kind) :
      Cut ([c] ++ rest) (verbatim kind [c] rest)
  | string {quote : Char} {inner rest : List Char} (hquote : quote = '"' ∨ quote = '\'')
      (h : Enclosed quote inner) :
      Cut (quote :: (inner ++ [quote]) ++ rest)
        ⟨.string, unescaped inner, quote :: (inner ++ [quote]), rest⟩

variable {c : Char} {front rest : List Char} {lexeme : Lexeme}

theorem Cut.split (h : Cut front lexeme) : front = lexeme.source ++ lexeme.rest := by
  cases h <;> rfl

theorem Cut.source_ne_nil (h : Cut front lexeme) : lexeme.source ≠ [] := by
  cases h with
  | numeral h => exact h.belongs.ne_nil
  | word h => exact h.belongs.ne_nil
  | operator h => exact h.belongs.ne_nil
  | mark => exact List.cons_ne_nil _ _
  | string => exact List.cons_ne_nil _ _

/-! ## The reader cuts these -/

theorem usable_of_ofWord {word : List Char} (h : ofWord word rest = .ok lexeme) :
    Usable word := by
  intro kind
  rw [ofWord] at h
  rw [wordKind] at kind
  split at h
  case isTrue truth =>
    rw [Bool.or_eq_true, decide_eq_true_eq, decide_eq_true_eq] at truth
    rw [if_pos truth] at kind
    cases kind
  case isFalse truth =>
    split at h
    case isTrue null =>
      rw [Bool.or_eq_true, decide_eq_true_eq, decide_eq_true_eq] at truth
      rw [if_neg truth, if_pos null] at kind
      cases kind
    case isFalse null =>
      split at h
      case isTrue => cases h
      case isFalse allowed =>
        rw [Bool.or_eq_true, not_or, Bool.not_eq_true', Bool.not_eq_false,
          Bool.not_eq_true] at allowed
        exact allowed

theorem ofWord_of_usable {word : List Char} (h : Usable word) (rest : List Char) :
    ofWord word rest = .ok (verbatim (wordKind word) word rest) := by
  rw [Usable, wordKind] at h
  rw [ofWord, wordKind]
  by_cases truth : word = "true".toList ∨ word = "false".toList
  · rw [if_pos truth,
      if_pos (by rwa [Bool.or_eq_true, decide_eq_true_eq, decide_eq_true_eq])]
  · rw [if_neg truth] at h ⊢
    rw [if_neg (by rwa [Bool.or_eq_true, decide_eq_true_eq, decide_eq_true_eq])]
    by_cases null : word = "null".toList
    · rw [if_pos null, if_pos null]
    · rw [if_neg null] at h ⊢
      obtain ⟨safe, quiet⟩ := h rfl
      rw [if_neg null, safe, quiet]
      rfl

theorem cut_of_lexeme? (h : lexeme? c rest = .ok lexeme) : Cut (c :: rest) lexeme := by
  rw [lexeme?] at h
  split at h
  case isTrue digit =>
    obtain rfl := Except.ok.inj h
    have longest : Longest IsNumeral (numeral (c :: rest)) (c :: rest) :=
      longest_numeral digit
    have split := List.prefix_iff_eq_append.1 longest.starts
    generalize numeral (c :: rest) = source at longest split
    generalize (c :: rest).drop source.length = behind at split ⊢
    rw [← split] at longest ⊢
    exact .numeral longest
  case isFalse =>
    split at h
    case isTrue quoted =>
      rw [Bool.or_eq_true, beq_iff_eq, beq_iff_eq] at quoted
      split at h
      case h_1 tail closed =>
        obtain rfl := Except.ok.inj h
        obtain ⟨inner, enclosed, kind, text, source, split⟩ := closeString?_eq_some closed
        rw [source] at split
        rw [split, kind, text, source]
        exact .string quoted enclosed
      case h_2 => cases h
    case isFalse =>
      split at h
      case isTrue start =>
        have longest : Longest IsWord ((c :: rest).takeWhile isWordPart) (c :: rest) :=
          longest_word start
        have split : (c :: rest).takeWhile isWordPart ++
            (c :: rest).dropWhile isWordPart = c :: rest :=
          List.takeWhile_append_dropWhile
        have usable := usable_of_ofWord h
        rw [eq_verbatim_of_ofWord h]
        generalize (c :: rest).takeWhile isWordPart = source at longest split usable
        generalize (c :: rest).dropWhile isWordPart = behind at split
        rw [← split] at longest ⊢
        exact .word longest usable
      case isFalse =>
        rw [ofSymbol] at h
        split at h
        case h_1 symbol found =>
          obtain rfl := Except.ok.inj h
          have longest := longest_longOperator found
          have split := List.prefix_iff_eq_append.1 longest.starts
          generalize (c :: rest).drop symbol.length = behind at split ⊢
          rw [← split] at longest ⊢
          exact .operator longest
        case h_2 missed =>
          split at h
          case isTrue short =>
            obtain rfl := Except.ok.inj h
            rw [List.contains_iff_mem] at short
            have longest : Longest IsOperator [c] ([c] ++ rest) :=
              longest_shortOperator missed short
            exact .operator longest
          case isFalse =>
            split at h
            case h_1 kind marked =>
              obtain rfl := Except.ok.inj h
              exact .mark marked
            case h_2 => cases h

/-! ## They are cut by the reader -/

/-- No numeral, string or word starts with the character. -/
def StartsSymbol (c : Char) : Prop :=
  c.isDigit = false ∧ (c == '"' || c == '\'') = false ∧ isWordStart c = false

instance (c : Char) : Decidable (StartsSymbol c) :=
  inferInstanceAs (Decidable (_ ∧ _))

theorem startsSymbol_of_isOperator {text : List Char} (h : IsOperator text) :
    ∀ c ∈ text.head?, StartsSymbol c := by
  rcases h with long | ⟨c, short, rfl⟩
  · exact
      (by decide : ∀ symbol ∈ longOperators, ∀ c ∈ symbol.head?, StartsSymbol c) text long
  · exact (by decide : ∀ c ∈ shortOperators, ∀ d ∈ [c].head?, StartsSymbol d) c short

theorem not_isDigit_of_isWordStart (h : isWordStart c = true) :
    c.isDigit = false ∧ (c == '"' || c == '\'') = false := by
  rw [← Bool.not_eq_true, ← Bool.not_eq_true, Bool.or_eq_true, beq_iff_eq, beq_iff_eq]
  constructor
  · intro digit
    have low := toNat_of_isDigit digit
    rw [isWordStart, Bool.or_eq_true, Bool.or_eq_true, beq_iff_eq, beq_iff_eq] at h
    rcases h with (letter | rfl) | rfl
    · have high := toNat_of_isAlpha letter
      omega
    · revert low
      decide
    · revert low
      decide
  · rintro (rfl | rfl) <;> revert h <;> decide

theorem mem_of_punctuation? {kind : TokenKind} (h : punctuation? c = some kind) :
    c ∈ ['.', '(', ')', '[', ']', ':'] := by
  rw [punctuation?.eq_def] at h
  split at h <;> first | decide | cases h

/-- No lexeme but a mark of punctuation has the kind of one. -/
theorem kind_mem_of_punctuation? {kind : TokenKind} (h : punctuation? c = some kind) :
    kind ∈ [.dot, .leftParen, .rightParen, .leftBracket, .rightBracket, .colon] := by
  rw [punctuation?.eq_def] at h
  split at h <;> cases h <;> decide

theorem lexeme?_of_startsSymbol (h : StartsSymbol c) (rest : List Char) :
    lexeme? c rest = ofSymbol c rest := by
  obtain ⟨digit, quote, start⟩ := h
  rw [lexeme?, digit, quote, start]
  rfl

theorem ofSymbol_of_longest {source : List Char}
    (h : Longest IsOperator source (source ++ rest))
    (hfront : source ++ rest = c :: front) :
    ofSymbol c front = .ok (verbatim .operator source rest) := by
  rw [ofSymbol, ← hfront]
  cases found : longOperators.find? (·.isPrefixOf (source ++ rest)) with
  | some symbol =>
    obtain rfl := (longest_longOperator found).unique h
    show Except.ok (verbatim _ _ ((symbol ++ rest).drop symbol.length)) = _
    rw [List.drop_left]
  | none =>
    rcases h.belongs with long | ⟨d, short, rfl⟩
    · have unmatched := List.find?_eq_none.1 found source long
      exact absurd (List.isPrefixOf_iff_prefix.2 h.starts) unmatched
    · obtain ⟨rfl, rfl⟩ := List.cons.inj hfront
      show (if shortOperators.contains d then _ else _) = _
      rw [if_pos (List.contains_iff_mem.2 short)]
      rfl

theorem ofSymbol_of_punctuation? {kind : TokenKind} (h : punctuation? c = some kind)
    (rest : List Char) : ofSymbol c rest = .ok (verbatim kind [c] rest) := by
  rw [punctuation?.eq_def] at h
  split at h <;> cases h <;> rfl

/-- An enclosed text is cut up to the quote behind it. -/
theorem closeString?_append {quote : Char} {inner : List Char} (hquote : quote ≠ '\\')
    (h : Enclosed quote inner) (rest : List Char) :
    closeString? quote (inner ++ quote :: rest) =
      some ⟨.string, unescaped inner, inner ++ [quote], rest⟩ := by
  induction h with
  | nil =>
    rw [List.nil_append, closeString?, if_pos (beq_self_eq_true quote)]
    · rfl
    · exact fun same _ => hquote same
    · exact fun _ _ same _ => hquote same
  | @plain c inner hc hother h ih =>
    have other : ¬ (c == quote) = true := fun same => hother (beq_iff_eq.1 same)
    rw [List.cons_append, closeString?, if_neg other, ih, unescaped_cons hc]
    · rfl
    · exact fun same _ => hc same
    · exact fun _ _ same _ => hc same
  | @pair c inner h ih =>
    rw [List.cons_append, List.cons_append, closeString?, ih, unescaped]
    rfl

theorem lexeme?_of_longest_numeral {source : List Char}
    (h : Longest IsNumeral source (source ++ rest)) (hfront : source ++ rest = c :: front) :
    lexeme? c front = .ok (verbatim .number source rest) := by
  have digit : c.isDigit = true := by
    obtain ⟨whole, part, power, hwhole, -, -, rfl⟩ := h.belongs
    have first : (whole ++ part ++ power ++ rest).head?.any Char.isDigit = true :=
      hwhole.any_head? (by simp)
    rwa [hfront] at first
  rw [hfront] at h
  rw [lexeme?, if_pos digit, (longest_numeral digit).unique h]
  show Except.ok (verbatim _ _ ((c :: front).drop source.length)) = _
  rw [← hfront, List.drop_left]

theorem lexeme?_of_longest_word {source : List Char}
    (h : Longest IsWord source (source ++ rest)) (usable : Usable source)
    (hfront : source ++ rest = c :: front) :
    lexeme? c front = .ok (verbatim (wordKind source) source rest) := by
  have start : isWordStart c = true := by
    obtain ⟨d, tail, rfl, hd, -⟩ := h.belongs
    rwa [(List.cons.inj hfront).1] at hd
  obtain ⟨digit, quote⟩ := not_isDigit_of_isWordStart start
  have whole := h
  rw [hfront] at whole
  have same : (c :: front).takeWhile isWordPart = source := (longest_word start).unique whole
  have behind : (c :: front).dropWhile isWordPart = rest := by
    have split : (c :: front).takeWhile isWordPart ++ (c :: front).dropWhile isWordPart =
        c :: front :=
      List.takeWhile_append_dropWhile
    rw [same, ← hfront] at split
    exact hfront ▸ List.append_cancel_left split
  rw [lexeme?, digit, quote, start, same, behind]
  exact ofWord_of_usable usable rest

theorem lexeme?_of_enclosed {quote : Char} {inner : List Char}
    (hquote : quote = '"' ∨ quote = '\'') (h : Enclosed quote inner) (rest : List Char) :
    lexeme? quote (inner ++ [quote] ++ rest) =
      .ok ⟨.string, unescaped inner, quote :: (inner ++ [quote]), rest⟩ := by
  have unescapable : quote ≠ '\\' := by
    rcases hquote with rfl | rfl <;> decide
  have digit : quote.isDigit = false := by
    rcases hquote with rfl | rfl <;> decide
  have quoted : (quote == '"' || quote == '\'') = true := by
    rwa [Bool.or_eq_true, beq_iff_eq, beq_iff_eq]
  rw [lexeme?, digit, quoted, List.append_assoc, List.singleton_append,
    closeString?_append unescapable h]
  rfl

theorem exists_lexeme?_of_cut (h : Cut front lexeme) :
    ∃ c rest, front = c :: rest ∧ lexeme? c rest = .ok lexeme := by
  have nonempty : front ≠ [] := by
    rw [h.split]
    exact List.append_ne_nil_of_left_ne_nil h.source_ne_nil _
  obtain ⟨c, behind, hfront⟩ := List.exists_cons_of_ne_nil nonempty
  refine ⟨c, behind, hfront, ?_⟩
  cases h with
  | numeral h => exact lexeme?_of_longest_numeral h hfront
  | word h usable => exact lexeme?_of_longest_word h usable hfront
  | operator h =>
    obtain ⟨d, tail, hsource⟩ := List.exists_cons_of_ne_nil h.belongs.ne_nil
    have symbol := startsSymbol_of_isOperator h.belongs d (by rw [hsource]; rfl)
    have same : d = c := by
      rw [hsource] at hfront
      exact (List.cons.inj hfront).1
    rw [lexeme?_of_startsSymbol (same ▸ symbol), ofSymbol_of_longest h hfront]
  | @mark d kind rest h =>
    obtain ⟨rfl, rfl⟩ := List.cons.inj hfront
    have symbol : ∀ c ∈ ['.', '(', ')', '[', ']', ':'], StartsSymbol c := by decide
    rw [lexeme?_of_startsSymbol (symbol d (mem_of_punctuation? h))]
    exact ofSymbol_of_punctuation? h rest
  | string hquote h =>
    obtain ⟨rfl, rfl⟩ := List.cons.inj hfront
    exact lexeme?_of_enclosed hquote h _

theorem lexeme?_eq_ok_iff : lexeme? c rest = .ok lexeme ↔ Cut (c :: rest) lexeme := by
  constructor
  · exact cut_of_lexeme?
  · intro h
    obtain ⟨d, behind, hfront, cut⟩ := exists_lexeme?_of_cut h
    obtain ⟨rfl, rfl⟩ := List.cons.inj hfront
    exact cut

/-- A text that is a word is cut as a whole, if it may be used. -/
theorem Cut.of_isWord (word : IsWord front) (h : Cut front lexeme) :
    Usable front ∧ lexeme = verbatim (wordKind front) front [] := by
  obtain ⟨c, behind, rfl, start, parts⟩ := word
  have all : ∀ d ∈ c :: behind, isWordPart d = true :=
    List.forall_mem_cons.2 ⟨isWordPart_of_isWordStart start, parts⟩
  have whole : (c :: behind ++ []).takeWhile isWordPart = c :: behind ++ [] :=
    List.takeWhile_append_of_pos all
  have none : (c :: behind ++ []).dropWhile isWordPart = [] :=
    List.dropWhile_append_of_pos all
  rw [List.append_nil] at whole none
  obtain ⟨digit, quote⟩ := not_isDigit_of_isWordStart start
  have read := lexeme?_eq_ok_iff.2 h
  rw [lexeme?, digit, quote, start, whole, none] at read
  exact ⟨usable_of_ofWord read, eq_verbatim_of_ofWord read⟩

/-! ## In another place -/

/-- What is cut from a text is so cut from any other that starts with it, if no text
without separators starts the other but not the first. -/
theorem Cut.transfer (h : Cut front lexeme) {more : List Char}
    (reflect : ∀ other, Solid other → other <+: lexeme.source ++ more → other <+: front) :
    Cut (lexeme.source ++ more) { lexeme with rest := more } := by
  cases h with
  | numeral h =>
    exact .numeral
      (h.transfer (fun _ => solid_of_isNumeral) (List.prefix_append _ _) reflect)
  | word h usable =>
    exact .word
      (h.transfer (fun _ => solid_of_isWord) (List.prefix_append _ _) reflect) usable
  | operator h =>
    exact .operator
      (h.transfer (fun _ => solid_of_isOperator) (List.prefix_append _ _) reflect)
  | mark h => exact .mark h
  | string hquote h => exact .string hquote h

/-- No lexeme starts with white space. -/
theorem Cut.isBlank_head? (h : Cut front lexeme) : ∀ c ∈ front.head?, isBlank c = false := by
  have head : front.head? = lexeme.source.head? := by
    rw [h.split, List.head?_append,
      Option.or_of_isSome (List.isSome_head?.2 h.source_ne_nil)]
  rw [head]
  cases h with
  | numeral h => exact (solid_of_isNumeral h.belongs).isBlank_head?
  | word h => exact (solid_of_isWord h.belongs).isBlank_head?
  | operator h => exact (solid_of_isOperator h.belongs).isBlank_head?
  | @mark d kind rest h =>
    have marks : ∀ c ∈ ['.', '(', ')', '[', ']', ':'],
        ∀ d ∈ [c].head?, isBlank d = false := by
      decide
    exact marks d (mem_of_punctuation? h)
  | @string quote inner rest hquote h =>
    have quotes : ∀ c ∈ [quote].head?, isBlank c = false := by
      rcases hquote with rfl | rfl <;> decide
    exact quotes

theorem wordKind_mem (word : List Char) :
    wordKind word ∈ [.boolean, .null, .identifier] := by
  rw [wordKind]
  split
  · decide
  · split <;> decide

theorem Cut.kind_ne_endOfInput (h : Cut front lexeme) : lexeme.kind ≠ .endOfInput := by
  cases h with
  | numeral h => exact TokenKind.noConfusion
  | @word source rest h usable =>
    exact
      (by decide : ∀ kind ∈ [TokenKind.boolean, .null, .identifier], kind ≠ .endOfInput) _
      (wordKind_mem source)
  | operator h => exact TokenKind.noConfusion
  | @mark c kind rest h =>
    rintro rfl
    exact absurd (kind_mem_of_punctuation? h) (by decide)
  | string hquote h => exact TokenKind.noConfusion

/-- What is cut as a number is a numeral. -/
theorem Cut.isNumeral (h : Cut front lexeme) (kind : lexeme.kind = .number) :
    IsNumeral lexeme.text := by
  cases h with
  | numeral h => exact h.belongs
  | @word source rest =>
    have among := wordKind_mem source
    rw [show wordKind source = .number from kind] at among
    exact absurd among (by decide)
  | mark h =>
    obtain rfl : _ = TokenKind.number := kind
    exact absurd (kind_mem_of_punctuation? h) (by decide)
  | operator => cases kind
  | string => cases kind

/-- What is cut as an identifier is a word that may be used as one. -/
theorem Cut.isWord (h : Cut front lexeme) (kind : lexeme.kind = .identifier) :
    IsWord lexeme.text ∧ Usable lexeme.text ∧ wordKind lexeme.text = .identifier := by
  cases h with
  | word h usable => exact ⟨h.belongs, usable, kind⟩
  | mark h =>
    obtain rfl : _ = TokenKind.identifier := kind
    exact absurd (kind_mem_of_punctuation? h) (by decide)
  | numeral => cases kind
  | operator => cases kind
  | string => cases kind

end GuardedExpr.Lexeme
