import GuardedExpr.Proofs.Token.Escape
import GuardedExpr.Proofs.Token.Longest
import GuardedExpr.Token.Scan

/-!
# Tokens tile their source

Each token takes up a span of the source: a numeral, a word or an operator the longest one
that stands there, a string all up to its closing quote. The spans come in order and do not
overlap, and between them stands nothing but white space.
-/

namespace GuardedExpr

/-- A token of a kind with a text may take up `source` at the start of `front`. -/
inductive Lexeme.Covers (front : List Char) :
    TokenKind → (text : List Char) → (source : List Char) → Prop
  | numeral {source : List Char} (h : Longest IsNumeral source front) :
      Covers front .number source source
  | word {source : List Char} (h : Longest IsWord source front) :
      Covers front (wordKind source) source source
  | operator {source : List Char} (h : Longest IsOperator source front)
      (hlong : ∀ symbol ∈ longOperators, symbol <+: front → source ∈ longOperators) :
      Covers front .operator source source
  | mark {c : Char} {kind : TokenKind} (h : punctuation? c = some kind)
      (hstart : [c] <+: front) :
      Covers front kind [c] [c]
  | string {quote : Char} {inner : List Char} (hquote : quote = '"' ∨ quote = '\'')
      (hstart : quote :: (inner ++ [quote]) <+: front)
      (hclosing : ¬ IsEscaped inner inner.length)
      (hinner : ∀ place, inner[place]? = some quote → IsEscaped inner place) :
      Covers front .string (unescaped inner) (quote :: (inner ++ [quote]))

namespace Lexeme

/-- A lexeme is cut from the front of a text, takes up something, and
covers what it takes up. -/
structure CutFrom (front : List Char) (lexeme : Lexeme) : Prop where
  split : front = lexeme.source ++ lexeme.rest
  nonempty : lexeme.source ≠ []
  covers : Covers front lexeme.kind lexeme.text lexeme.source

variable {c : Char} {rest : List Char} {lexeme : Lexeme}

theorem cutFrom_numeral (h : c.isDigit = true) :
    CutFrom (c :: rest) (verbatim .number (numeral (c :: rest))
      ((c :: rest).drop (numeral (c :: rest)).length)) := by
  have longest : Longest IsNumeral (numeral (c :: rest)) (c :: rest) := longest_numeral h
  exact ⟨(List.prefix_iff_eq_append.1 longest.starts).symm, longest.belongs.ne_nil,
    .numeral longest⟩

theorem cutFrom_closeString? {tail : Lexeme} (hquote : c = '"' ∨ c = '\'')
    (h : closeString? c rest = some tail) :
    CutFrom (c :: rest) { tail with source := c :: tail.source } := by
  obtain ⟨inner, enclosed, kind, text, source, split⟩ := closeString?_eq_some h
  have unescapable : c ≠ '\\' := by
    rcases hquote with rfl | rfl <;> decide
  have start : c :: (inner ++ [c]) <+: c :: rest := by
    rw [split, source]
    exact List.prefix_append (c :: (inner ++ [c])) tail.rest
  refine ⟨congrArg (c :: ·) split, List.cons_ne_nil c _, ?_⟩
  show Covers (c :: rest) tail.kind tail.text (c :: tail.source)
  rw [kind, text, source]
  exact .string hquote start enclosed.not_isEscaped_length (enclosed.isEscaped unescapable)

/-- A word that is not refused is taken as it stands. -/
theorem eq_verbatim_of_ofWord {word : List Char} (h : ofWord word rest = .ok lexeme) :
    lexeme = verbatim (wordKind word) word rest := by
  rw [ofWord] at h
  rw [wordKind]
  split at h
  case isTrue truth =>
    rw [Bool.or_eq_true, decide_eq_true_eq, decide_eq_true_eq] at truth
    rw [if_pos truth]
    exact (Except.ok.inj h).symm
  case isFalse truth =>
    rw [Bool.or_eq_true, decide_eq_true_eq, decide_eq_true_eq] at truth
    rw [if_neg truth]
    split at h
    case isTrue null =>
      rw [if_pos null]
      exact (Except.ok.inj h).symm
    case isFalse null =>
      rw [if_neg null]
      split at h
      · cases h
      · exact (Except.ok.inj h).symm

theorem cutFrom_ofWord (h : isWordStart c = true)
    (hword : ofWord ((c :: rest).takeWhile isWordPart) ((c :: rest).dropWhile isWordPart) =
      .ok lexeme) :
    lexeme.CutFrom (c :: rest) := by
  rw [eq_verbatim_of_ofWord hword]
  refine ⟨List.takeWhile_append_dropWhile.symm, ?_, .word (longest_word h)⟩
  show (c :: rest).takeWhile isWordPart ≠ []
  rw [List.takeWhile_cons_of_pos (isWordPart_of_isWordStart h)]
  exact List.cons_ne_nil c _

theorem cutFrom_ofSymbol (h : ofSymbol c rest = .ok lexeme) :
    lexeme.CutFrom (c :: rest) := by
  rw [ofSymbol] at h
  split at h
  case h_1 symbol found =>
    have longest := longest_longOperator found
    have member : symbol ∈ longOperators := List.mem_of_find?_eq_some found
    obtain rfl := Except.ok.inj h
    refine ⟨(List.prefix_iff_eq_append.1 longest.starts).symm, ?_, ?_⟩
    · intro empty
      have length := length_of_mem_longOperators symbol member
      rw [show symbol = [] from empty] at length
      cases length
    · exact .operator longest fun _ _ _ => member
  case h_2 missed =>
    split at h
    case isTrue short =>
      obtain rfl := Except.ok.inj h
      refine ⟨rfl, List.cons_ne_nil c [], .operator (longest_shortOperator missed ?_) ?_⟩
      · rwa [List.contains_iff_mem] at short
      · intro symbol member starts
        exact absurd (List.isPrefixOf_iff_prefix.2 starts)
          (List.find?_eq_none.1 missed symbol member)
    case isFalse =>
      split at h
      case h_1 kind marked =>
        obtain rfl := Except.ok.inj h
        exact ⟨rfl, List.cons_ne_nil c [], .mark marked (List.prefix_append [c] rest)⟩
      case h_2 => cases h

theorem cutFrom_lexeme? (h : lexeme? c rest = .ok lexeme) : lexeme.CutFrom (c :: rest) := by
  rw [lexeme?] at h
  split at h
  case isTrue digit =>
    obtain rfl := Except.ok.inj h
    exact cutFrom_numeral digit
  case isFalse =>
    split at h
    case isTrue quoted =>
      rw [Bool.or_eq_true, beq_iff_eq, beq_iff_eq] at quoted
      split at h
      case h_1 tail closed =>
        obtain rfl := Except.ok.inj h
        exact cutFrom_closeString? quoted closed
      case h_2 => cases h
    case isFalse =>
      split at h
      case isTrue start => exact cutFrom_ofWord start h
      case isFalse => exact cutFrom_ofSymbol h

end Lexeme

/-- A token and the place behind the last character that it takes up. -/
structure Span where
  token : Token
  stop : Nat

namespace Span

def start (span : Span) : Nat :=
  span.token.position

/-- What the span takes up of a source. -/
def slice (span : Span) (source : List Char) : List Char :=
  (source.drop span.start).take (span.stop - span.start)

end Span

/-- The span of a lexeme that stands at a place. -/
def Lexeme.spanAt (lexeme : Lexeme) (start : Nat) : Span :=
  ⟨⟨lexeme.kind, String.ofList lexeme.text, start⟩, start + lexeme.source.length⟩

/-- From a place on, spans with white space between them tile a source up to its end. -/
inductive Tiles (source : List Char) : Nat → List Span → Prop
  | done {position : Nat} (blank : ∀ c ∈ source.drop position, isBlank c = true) :
      Tiles source position []
  | next {position : Nat} {span : Span} {spans : List Span} (gap : position ≤ span.start)
      (blank : ∀ c ∈ (source.drop position).take (span.start - position), isBlank c = true)
      (nonempty : span.start < span.stop) (inside : span.stop ≤ source.length)
      (covers : Lexeme.Covers (source.drop span.start) span.token.kind span.token.text.toList
        (span.slice source))
      (behind : Tiles source span.stop spans) : Tiles source position (span :: spans)

namespace Tiles

variable {source : List Char} {position : Nat} {spans : List Span}

/-- A lexeme behind white space goes in front of the spans behind it. -/
theorem cons {blanks front : List Char} {lexeme : Lexeme}
    (hfront : source.drop position = blanks ++ front)
    (hblank : ∀ c ∈ blanks, isBlank c = true) (hcut : lexeme.CutFrom front)
    (h : Tiles source (position + blanks.length + lexeme.source.length) spans) :
    Tiles source position (lexeme.spanAt (position + blanks.length) :: spans) := by
  have left : source.drop (position + blanks.length) = front := by
    rw [← List.drop_drop, hfront, List.drop_left]
  have length := congrArg List.length left
  rw [List.length_drop, hcut.split, List.length_append] at length
  have positive : 0 < lexeme.source.length := List.length_pos_iff.2 hcut.nonempty
  have slice : (lexeme.spanAt (position + blanks.length)).slice source = lexeme.source := by
    show (source.drop (position + blanks.length)).take
      (_ + _ - (position + blanks.length)) = _
    rw [Nat.add_sub_cancel_left, left, hcut.split, List.take_left]
  refine .next (Nat.le_add_right _ _) ?_ (Nat.lt_add_of_pos_right positive) ?_ ?_ h
  · show ∀ c ∈ (source.drop position).take (position + blanks.length - position),
      isBlank c = true
    rwa [Nat.add_sub_cancel_left, hfront, List.take_left]
  · show position + blanks.length + lexeme.source.length ≤ source.length
    omega
  · show Lexeme.Covers (source.drop (position + blanks.length)) lexeme.kind
      (String.ofList lexeme.text).toList _
    rw [slice, String.toList_ofList, left]
    exact hcut.covers

theorem le_start (h : Tiles source position spans) :
    ∀ span ∈ spans, position ≤ span.start := by
  induction h with
  | done => exact fun _ h => nomatch h
  | next gap _ nonempty _ _ _ ih =>
    refine List.forall_mem_cons.2 ⟨gap, fun span hspan => ?_⟩
    have later := ih span hspan
    omega

theorem pairwise (h : Tiles source position spans) :
    spans.Pairwise fun span later => span.stop ≤ later.start := by
  induction h with
  | done => exact List.Pairwise.nil
  | next _ _ _ _ _ behind ih => exact List.pairwise_cons.2 ⟨behind.le_start, ih⟩

theorem covers (h : Tiles source position spans) : ∀ span ∈ spans,
    span.start < span.stop ∧ span.stop ≤ source.length ∧
      Lexeme.Covers (source.drop span.start) span.token.kind span.token.text.toList
        (span.slice source) := by
  induction h with
  | done => exact fun _ h => nomatch h
  | next _ _ nonempty inside covers _ ih =>
    exact List.forall_mem_cons.2 ⟨⟨nonempty, inside, covers⟩, ih⟩

/-- What no span takes up is white space. -/
theorem blank_or_covered (h : Tiles source position spans) {place : Nat}
    (hplace : position ≤ place) {c : Char} (hc : source[place]? = some c) :
    isBlank c = true ∨ ∃ span ∈ spans, span.start ≤ place ∧ place < span.stop := by
  induction h with
  | @done position blank =>
    refine Or.inl (blank c (List.mem_of_getElem? (i := place - position) ?_))
    rw [List.getElem?_drop, Nat.add_sub_cancel' hplace, hc]
  | @next position span spans gap blank nonempty inside covers behind ih =>
    rcases Nat.lt_or_ge place span.start with before | later
    · refine Or.inl (blank c (List.mem_of_getElem? (i := place - position) ?_))
      rw [List.getElem?_take_of_lt (by omega), List.getElem?_drop,
        Nat.add_sub_cancel' hplace, hc]
    · rcases Nat.lt_or_ge place span.stop with within | beyond
      · exact Or.inr ⟨span, List.mem_cons_self, later, within⟩
      · exact (ih beyond).imp_right fun ⟨other, member, covered⟩ =>
          ⟨other, List.mem_cons_of_mem span member, covered⟩

end Tiles

/-- All that a scan can do that succeeds: it ends behind white space, or it reads one more
lexeme behind white space and goes on behind that. -/
theorem scanFrom_succ_eq_ok {limits : SourceLimits} {source text : List Char}
    {fuel room position : Nat} {tokens : List Token}
    (h : scanFrom limits source (fuel + 1) room position text = .ok tokens) :
    let start := position + (text.takeWhile isBlank).length
    (text.dropWhile isBlank = [] ∧ tokens = [Token.endAt start]) ∨
      ∃ c rest lexeme fewer further, text.dropWhile isBlank = c :: rest ∧ room = fewer + 1 ∧
        lexeme? c rest = .ok lexeme ∧
        scanFrom limits source fuel fewer (start + lexeme.source.length) lexeme.rest =
          .ok further ∧
        tokens = (lexeme.spanAt start).token :: further := by
  intro start
  rw [scanFrom] at h
  split at h
  case h_1 none => exact Or.inl ⟨none, (Except.ok.inj h).symm⟩
  case h_2 c rest front =>
    split at h
    case h_1 => cases h
    case h_2 fewer =>
      split at h
      case h_1 => cases h
      case h_2 lexeme read =>
        split at h
        case h_1 => cases h
        case h_2 further scanned =>
          exact Or.inr ⟨c, rest, lexeme, fewer, further, front, rfl, read, scanned,
            (Except.ok.inj h).symm⟩

/-- The tokens that are scanned from a place on tile the source from there. -/
theorem tiles_of_scanFrom {limits : SourceLimits} {source text : List Char}
    {fuel room position : Nat} {tokens : List Token} (hfuel : text.length ≤ fuel)
    (htext : source.drop position = text)
    (hlength : position + text.length = source.length)
    (h : scanFrom limits source fuel room position text = .ok tokens) :
    ∃ spans, tokens = spans.map Span.token ++ [Token.endAt source.length] ∧
      Tiles source position spans := by
  induction fuel generalizing room position text tokens with
  | zero =>
    obtain rfl : text = [] := List.eq_nil_of_length_eq_zero (Nat.le_zero.1 hfuel)
    obtain rfl := Except.ok.inj h
    refine ⟨[], congrArg (fun place => [Token.endAt place]) hlength, .done ?_⟩
    rw [htext]
    exact fun _ h => nomatch h
  | succ fuel ih =>
    have split : text.takeWhile isBlank ++ text.dropWhile isBlank = text :=
      List.takeWhile_append_dropWhile
    have blank : ∀ c ∈ text.takeWhile isBlank, isBlank c = true :=
      List.all_eq_true.1 List.all_takeWhile
    rcases scanFrom_succ_eq_ok h with
      ⟨none, rfl⟩ | ⟨c, rest, lexeme, fewer, further, front, -, read, scanned, rfl⟩
    · rw [none, List.append_nil] at split
      refine ⟨[], ?_, .done ?_⟩
      · rw [split, hlength]
        rfl
      · rwa [htext, ← split]
    · have cut := Lexeme.cutFrom_lexeme? read
      have shorter : 0 < lexeme.source.length := List.length_pos_iff.2 cut.nonempty
      have whole : text.takeWhile isBlank ++ (lexeme.source ++ lexeme.rest) = text := by
        rw [← cut.split, ← front, split]
      have length := congrArg List.length whole
      rw [List.length_append, List.length_append] at length
      have next :
          source.drop (position + (text.takeWhile isBlank).length + lexeme.source.length) =
          lexeme.rest := by
        rw [← List.drop_drop, ← List.drop_drop, htext]
        conv => lhs; arg 2; arg 2; rw [← whole]
        rw [List.drop_left, List.drop_left]
      obtain ⟨spans, rfl, tiles⟩ := ih (by omega) next (by omega) scanned
      exact ⟨lexeme.spanAt _ :: spans, rfl,
        tiles.cons (by rw [htext, ← front, split]) blank cut⟩

/-- The tokens of a source take up spans in order that do not overlap, with nothing but
white space outside of them. Each is the longest of its class that stands there, or a
string up to its closing quote, and the end marker stands behind the last character. -/
theorem tokenize_tiles {source : String} {limits : SourceLimits} {tokens : List Token}
    (h : tokenize source limits = .ok tokens) :
    ∃ spans : List Span,
      tokens = spans.map Span.token ++ [Token.endAt source.length] ∧
      spans.Pairwise (fun span later => span.stop ≤ later.start) ∧
      (∀ span ∈ spans, span.start < span.stop ∧ span.stop ≤ source.length ∧
        Lexeme.Covers (source.toList.drop span.start) span.token.kind span.token.text.toList
          (span.slice source.toList)) ∧
      ∀ place c, source.toList[place]? = some c →
        isBlank c = true ∨ ∃ span ∈ spans, span.start ≤ place ∧ place < span.stop := by
  rw [tokenize] at h
  split at h
  case h_1 => cases h
  case h_2 =>
    have whole : source.toList.drop 0 = source.toList := List.drop_zero
    obtain ⟨spans, eq, tiles⟩ := tiles_of_scanFrom (Nat.le_refl _) whole (Nat.zero_add _) h
    refine ⟨spans, ?_, tiles.pairwise, ?_, ?_⟩
    · rw [eq, String.length_toList]
    · intro span hspan
      have covers := tiles.covers span hspan
      rwa [String.length_toList] at covers
    · intro place c
      exact tiles.blank_or_covered (Nat.zero_le place)

-- The numeral stops in front of a mark without digits, and the string
-- holds an escaped quote.
theorem tokenize_tiles_short_numeral :
    let tokens : List Token :=
      [⟨.number, "1", 0⟩, ⟨.identifier, "e", 1⟩, ⟨.operator, ">=", 3⟩,
      ⟨.string, "'", 6⟩, Token.endAt 10]
    tokenize "1e >= '\\''" = .ok tokens ∧
      ∃ spans : List Span, tokens = spans.map Span.token ++ [Token.endAt 10] ∧
        (∀ span ∈ spans, Lexeme.Covers ("1e >= '\\''".toList.drop span.start) span.token.kind
          span.token.text.toList (span.slice "1e >= '\\''".toList)) ∧
        ∀ place c, "1e >= '\\''".toList[place]? = some c →
          isBlank c = true ∨ ∃ span ∈ spans, span.start ≤ place ∧ place < span.stop := by
  intro tokens
  have scanned : tokenize "1e >= '\\''" = .ok tokens := by rfl
  obtain ⟨spans, eq, -, covers, complete⟩ := tokenize_tiles scanned
  exact ⟨scanned, spans, eq, fun span hspan => (covers span hspan).2.2, complete⟩

end GuardedExpr
