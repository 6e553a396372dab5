import GuardedExpr.Proofs.Token.Pattern
import GuardedExpr.Proofs.Token.Reading
import Mathlib.Data.List.Chain

/-!
# White space between tokens

`spread` puts text into another text, in front of its characters and at its end. White
space that is put outside of the lexemes leaves every lexeme as it is, as none of them
reaches over white space. It can only make a forbidden pattern where it separates two word
characters, as then a word starts behind it.
-/

namespace GuardedExpr

open Lexeme

/-- The text, which stands at the place, with `added` put in at all places
from there to its end. -/
def spread (added : Nat → List Char) : Nat → List Char → List Char
  | position, [] => added position
  | position, c :: text => added position ++ c :: spread added (position + 1) text

/-- The two characters where a text goes on are not both word characters. -/
def Loose (before : Option Char) (text : List Char) : Prop :=
  ∀ x ∈ before, ∀ y ∈ text.head?, isWordChar x = true → isWordChar y = false

/-- White space is put into a text that goes on behind `before`, but not
between word characters. -/
inductive Spaced : Option Char → List Char → List Char → Prop
  | nil {before : Option Char} : Spaced before [] []
  | keep {before : Option Char} {c : Char} {text text' : List Char}
      (h : Spaced (some c) text text') :
      Spaced before (c :: text) (c :: text')
  | blank {before : Option Char} {c : Char} {text text' : List Char} (hc : isBlank c = true)
      (loose : Loose before text) (h : Spaced before text text') :
      Spaced before text (c :: text')

variable {added : Nat → List Char} {position : Nat} {before before' : Option Char}
  {text text' part gap rest rest' : List Char}

/-! ## Forbidden patterns -/

/-- White space stands outside of a part that has none. -/
theorem Spaced.of_visible (h : Spaced before text (part ++ rest'))
    (visible : ∀ c ∈ part, isBlank c = false) :
    ∃ rest, text = part ++ rest ∧ Spaced (part.getLast?.or before) rest rest' := by
  induction part generalizing before text with
  | nil => exact ⟨text, rfl, h⟩
  | cons c part ih =>
    obtain ⟨hc, others⟩ := List.forall_mem_cons.1 visible
    cases h with
    | keep h =>
      obtain ⟨rest, rfl, further⟩ := ih h others
      rw [getLast?_cons_or]
      exact ⟨rest, rfl, further⟩
    | blank blank =>
      rw [hc] at blank
      cases blank

theorem Spaced.of_gap {opener : Char} (h : Spaced before text (gap ++ opener :: rest'))
    (blank : ∀ c ∈ gap, isBlank c = true) (visible : isBlank opener = false) :
    ∃ shorter rest, text = shorter ++ opener :: rest ∧ ∀ c ∈ shorter, isBlank c = true := by
  induction gap generalizing before text with
  | nil =>
    cases h with
    | keep h => exact ⟨[], _, rfl, List.forall_mem_nil _⟩
    | blank other =>
      rw [visible] at other
      cases other
  | cons c gap ih =>
    obtain ⟨hc, others⟩ := List.forall_mem_cons.1 blank
    cases h with
    | keep h =>
      obtain ⟨shorter, rest, rfl, further⟩ := ih h others
      exact ⟨c :: shorter, rest, rfl, List.forall_mem_cons.2 ⟨hc, further⟩⟩
    | blank _ _ h => exact ih h others

/-- A pattern in the spaced text is one in the text without the spaces. -/
theorem Spaced.forbidden (h : Spaced before text text')
    (same : before' = before ∨ Loose before text) (starts : part <+: text')
    (bad : Forbidden before' part) :
    ∃ other, other <+: text ∧ Forbidden before other := by
  obtain ⟨rest', rfl⟩ := starts
  rcases bad with ⟨word, member, spells⟩ | ⟨use, member, found⟩
  · have visible : ∀ c ∈ part, isBlank c = false := fun c hc =>
      (spells.forall_mem (isInk_of_sameLetter word member) c hc).1
    obtain ⟨rest, rfl, -⟩ := h.of_visible visible
    exact ⟨part, List.prefix_append part rest, .inl ⟨word, member, spells⟩⟩
  · cases found with
    | @named use name openers part gap opener opened fresh spells blank opens =>
      have letters := isWordChar_of_spells member opened spells
      rw [List.append_assoc, List.append_assoc] at h
      obtain ⟨rest, rfl, further⟩ := h.of_visible fun c hc =>
        (isInk_of_isWordChar (letters c hc)).1
      obtain ⟨shorter, rest, rfl, blank⟩ :=
        further.of_gap blank (ForbiddenUse.isBlank_of_mem_openers opened opener opens)
      refine ⟨part ++ (shorter ++ [opener]), ⟨rest, by simp⟩, .inr ⟨use, member, ?_⟩⟩
      refine .named opened ?_ spells blank opens
      rcases same with rfl | loose
      · exact fresh
      · obtain ⟨y, tail, rfl⟩ :=
          List.exists_cons_of_ne_nil (spells.ne_nil_of_opened member opened)
        intro x hx
        rw [← Bool.not_eq_true]
        intro word
        have other := loose x hx y rfl word
        rw [letters y List.mem_cons_self] at other
        cases other
    | arrow =>
      obtain ⟨rest, rfl, -⟩ := h.of_visible (by decide)
      exact ⟨_, List.prefix_append _ rest, .inr ⟨_, member, .arrow⟩⟩

theorem Spaced.clean (h : Spaced before text text') (clean : Clean before text)
    (same : before' = before ∨ Loose before text) : Clean before' text' := by
  induction h generalizing before' with
  | nil => exact clean_nil before'
  | @keep before c text text' h ih =>
    obtain ⟨here, further⟩ := clean_cons.1 clean
    refine clean_cons.2 ⟨fun part starts bad => ?_, ih further (.inl rfl)⟩
    obtain ⟨other, starts, bad⟩ := (Spaced.keep h).forbidden same starts bad
    exact here other starts bad
  | @blank before c text text' hc loose h ih =>
    refine clean_cons.2 ⟨fun part starts bad => ?_, ih clean (.inr loose)⟩
    obtain ⟨d, tail, rfl⟩ := List.exists_cons_of_ne_nil bad.ne_nil
    obtain ⟨rfl, -⟩ := List.cons_prefix_cons.1 starts
    have visible := bad.isBlank_head? d rfl
    rw [hc] at visible
    cases visible

/-! ## Lexemes that meet -/

namespace Lexeme

variable {front : List Char} {lexeme lexeme' : Lexeme} {x y : Char}

theorem IsDigits.concat {digits : List Char} (h : IsDigits digits) (hy : y.isDigit = true) :
    IsDigits (digits ++ [y]) :=
  ⟨List.append_ne_nil_of_left_ne_nil h.1 _,
    List.forall_mem_append.2 ⟨h.2, List.forall_mem_singleton.2 hy⟩⟩

theorem IsNumeral.concat {source : List Char} (h : IsNumeral source)
    (hy : y.isDigit = true) :
    IsNumeral (source ++ [y]) := by
  obtain ⟨whole, part, power, hwhole, hpart, hpower, rfl⟩ := h
  cases hpower with
  | @some mark sign digits hmark hsign hdigits =>
    refine ⟨whole, part, mark :: (sign ++ (digits ++ [y])), hwhole, hpart,
      .some hmark hsign (IsDigits.concat hdigits hy), ?_⟩
    simp
  | none =>
    cases hpart with
    | @some digits hdigits =>
      exact ⟨whole, '.' :: (digits ++ [y]), [], hwhole,
        .some (IsDigits.concat hdigits hy), .none, by simp⟩
    | none => exact ⟨whole ++ [y], [], [], IsDigits.concat hwhole hy, .none, .none, by simp⟩

theorem IsWord.concat {source : List Char} (h : IsWord source) (hy : isWordPart y = true) :
    IsWord (source ++ [y]) := by
  obtain ⟨c, rest, rfl, hc, hrest⟩ := h
  exact ⟨c, rest ++ [y], rfl, hc,
    List.forall_mem_append.2 ⟨hrest, List.forall_mem_singleton.2 hy⟩⟩

/-- What stands behind a longest text of a class does not make it longer. -/
theorem Longest.not_concat {Belongs : List Char → Prop} {source rest : List Char}
    (h : Longest Belongs source (source ++ rest)) (hy : y ∈ rest.head?) :
    ¬ Belongs (source ++ [y]) := by
  intro longer
  obtain ⟨tail, rfl⟩ := List.head?_eq_some_iff.1 hy
  have starts : source ++ [y] <+: source ++ y :: tail := ⟨tail, by simp⟩
  have length := h.longest _ longer starts
  rw [List.length_append, List.length_singleton] at length
  omega

theorem isWordChar_of_isOperator {symbol : List Char} (h : IsOperator symbol) :
    ∀ c ∈ symbol, isWordChar c = false := by
  rcases h with long | ⟨c, short, rfl⟩
  · revert symbol
    decide +kernel
  · revert c
    decide +kernel

theorem isWordChar_of_punctuation? {c : Char} {kind : TokenKind}
    (h : punctuation? c = some kind) :
    isWordChar c = false := by
  have marks : ∀ c ∈ ['.', '(', ')', '[', ']', ':'], isWordChar c = false := by
    decide +kernel
  exact marks c (mem_of_punctuation? h)

theorem isWordChar_of_quote {quote : Char} (h : quote = '"' ∨ quote = '\'') :
    isWordChar quote = false := by
  rcases h with rfl | rfl <;> decide +kernel

/-- A word character starts only numerals and words. -/
theorem Cut.of_isWordChar_head (h : Cut front lexeme) (hy : y ∈ front.head?)
    (word : isWordChar y = true) :
    y.isDigit = true ∨
      (isWordPart y = true ∧ lexeme.kind ∈ [TokenKind.boolean, .null, .identifier]) := by
  have first : y ∈ lexeme.source.head? := by
    rwa [h.split, List.head?_append,
      Option.or_of_isSome (List.isSome_head?.2 h.source_ne_nil)] at hy
  have inside := List.mem_of_mem_head? first
  cases h with
  | @numeral source rest h =>
    obtain ⟨whole, part, power, hwhole, -, -, rfl⟩ := h.belongs
    have digit : (whole ++ part ++ power).head?.any Char.isDigit = true :=
      hwhole.any_head? (by simp)
    rw [show (whole ++ part ++ power).head? = some y from first] at digit
    exact .inl digit
  | @word source rest h usable =>
    exact .inr ⟨h.belongs.forall_isWordPart y inside, wordKind_mem source⟩
  | operator h =>
    rw [isWordChar_of_isOperator h.belongs y inside] at word
    cases word
  | mark h =>
    rw [List.mem_singleton.1 inside, isWordChar_of_punctuation? h] at word
    cases word
  | string hquote h =>
    cases first
    rw [isWordChar_of_quote hquote] at word
    cases word

/-- Where a word character is followed by another behind a lexeme, the one is a numeral
and the other a word. -/
theorem Cut.joined (h : Cut front lexeme) (h' : Cut lexeme.rest lexeme')
    (hx : x ∈ lexeme.source.getLast?) (hy : y ∈ lexeme.rest.head?)
    (word : isWordChar x = true) (word' : isWordChar y = true) :
    lexeme.kind = .number ∧ lexeme'.kind ∈ [TokenKind.boolean, .null, .identifier] := by
  have inside := List.mem_of_getLast? hx
  have starts := h'.of_isWordChar_head hy word'
  cases h with
  | numeral h =>
    rcases starts with digit | ⟨-, kind⟩
    · exact absurd (h.belongs.concat digit) (h.not_concat hy)
    · exact ⟨rfl, kind⟩
  | word h =>
    have part : isWordPart y = true := starts.elim isWordPart_of_isDigit And.left
    exact absurd (h.belongs.concat part) (h.not_concat hy)
  | operator h =>
    rw [isWordChar_of_isOperator h.belongs x inside] at word
    cases word
  | mark h =>
    rw [List.mem_singleton.1 inside, isWordChar_of_punctuation? h] at word
    cases word
  | string hquote h =>
    rw [← List.cons_append, List.getLast?_concat] at hx
    cases hx
    rw [isWordChar_of_quote hquote] at word
    cases word

end Lexeme

/-! ## Spreading a text -/

section

variable {spans : List Span}

/-- Nothing is added strictly inside of a span. -/
def Outside (added : Nat → List Char) (spans : List Span) : Prop :=
  ∀ span ∈ spans, ∀ place, span.start < place → place < span.stop → added place = []

/-- Only white space is added. -/
def Blank (added : Nat → List Char) : Prop :=
  ∀ place, ∀ c ∈ added place, isBlank c = true

theorem forall_mem_spread {p : Char → Prop} (hadded : ∀ place, ∀ c ∈ added place, p c)
    (htext : ∀ c ∈ text, p c) : ∀ c ∈ spread added position text, p c := by
  induction text generalizing position with
  | nil => exact hadded position
  | cons c text ih =>
    obtain ⟨hc, others⟩ := List.forall_mem_cons.1 htext
    exact List.forall_mem_append.2 ⟨hadded position, List.forall_mem_cons.2 ⟨hc, ih others⟩⟩

/-- White space stays white space. -/
theorem exists_spread_append (blank : Blank added) (hgap : ∀ c ∈ gap, isBlank c = true) :
    ∃ wider, (∀ c ∈ wider, isBlank c = true) ∧
      ∀ text, spread added position (gap ++ text) =
        wider ++ spread added (position + gap.length) text := by
  induction gap generalizing position with
  | nil => exact ⟨[], hgap, fun _ => rfl⟩
  | cons c gap ih =>
    obtain ⟨hc, others⟩ := List.forall_mem_cons.1 hgap
    obtain ⟨wider, hwider, split⟩ := @ih (position + 1) others
    refine ⟨added position ++ c :: wider, ?_, fun text => ?_⟩
    · exact List.forall_mem_append.2 ⟨blank position, List.forall_mem_cons.2 ⟨hc, hwider⟩⟩
    · rw [List.cons_append, spread, split, List.append_assoc, List.length_cons,
        Nat.add_right_comm]
      rfl

/-- A text that nothing is put into stays as it is. -/
theorem spread_append {source : List Char} (nonempty : source ≠ [])
    (inside : ∀ place, position < place → place < position + source.length →
      added place = [])
    (rest : List Char) : spread added position (source ++ rest) =
      added position ++ (source ++ spread added (position + source.length) rest) := by
  induction source generalizing position with
  | nil => exact absurd rfl nonempty
  | cons c source ih =>
    cases source with
    | nil => rfl
    | cons d source =>
      have length :
          position + (c :: d :: source).length = position + 1 + (d :: source).length := by
        rw [List.length_cons (a := c), Nat.add_assoc, Nat.add_comm 1]
      rw [length] at inside ⊢
      have next : added (position + 1) = [] :=
        inside (position + 1) (Nat.lt_succ_self _) (Nat.lt_add_of_pos_right (Nat.succ_pos _))
      have further := @ih (position + 1) (List.cons_ne_nil d source) fun place hlow =>
        inside place (Nat.lt_of_succ_lt hlow)
      rw [List.cons_append, spread, further, next]
      rfl

/-- In front of a lexeme white space may become more, and the lexeme itself stays. -/
theorem exists_spread_lexeme {lexeme : Lexeme} {front : List Char} (blank : Blank added)
    (hgap : ∀ c ∈ gap, isBlank c = true) (cut : Cut front lexeme)
    (inside : ∀ place, position + gap.length < place →
      place < position + gap.length + lexeme.source.length → added place = []) :
    ∃ wider, (∀ c ∈ wider, isBlank c = true) ∧ spread added position (gap ++ front) =
      wider ++ (lexeme.source ++ spread added (position + gap.length + lexeme.source.length)
        lexeme.rest) := by
  obtain ⟨wider, hwider, split⟩ := @exists_spread_append added position gap blank hgap
  refine ⟨wider ++ added (position + gap.length),
    List.forall_mem_append.2 ⟨hwider, blank _⟩, ?_⟩
  rw [split, cut.split, spread_append cut.source_ne_nil inside, List.append_assoc]

theorem eq_nil_of_isPrefix {x : Char} {other more : List Char} (blank : Blank added)
    (visible : isBlank x = false) (starts : x :: other <+: added position ++ more) :
    added position = [] := by
  cases here : added position with
  | nil => rfl
  | cons y further =>
    rw [here] at starts
    obtain ⟨rfl, -⟩ := List.cons_prefix_cons.1 starts
    have white := blank position x (by rw [here]; exact List.mem_cons_self)
    rw [visible] at white
    cases white

/-- A text without separators that starts the spread text starts the text as well. -/
theorem Solid.isPrefix_of_spread {other : List Char} (h : Solid other) (blank : Blank added)
    (starts : other <+: spread added position text) : other <+: text := by
  induction text generalizing position other with
  | nil =>
    cases other with
    | nil => exact List.nil_prefix
    | cons x other =>
      rw [spread] at starts
      have whole := starts
      rw [← List.append_nil (added position)] at whole
      rw [eq_nil_of_isPrefix blank (h.isBlank_head? x rfl) whole] at starts
      exact starts
  | cons c text ih =>
    cases other with
    | nil => exact List.nil_prefix
    | cons x other =>
      rw [spread] at starts
      rw [eq_nil_of_isPrefix blank (h.isBlank_head? x rfl) starts, List.nil_append] at starts
      obtain ⟨rfl, further⟩ := List.cons_prefix_cons.1 starts
      exact (List.prefix_cons_inj x).2
        (ih (fun d hd => h d (List.mem_cons_of_mem x hd)) further)

theorem Solid.isPrefix_append_of_spread {other source : List Char} (h : Solid other)
    (blank : Blank added) (starts : other <+: source ++ spread added position text) :
    other <+: source ++ text := by
  rcases Nat.le_total other.length source.length with short | long
  · have inside : other <+: source :=
      List.prefix_of_prefix_length_le starts (List.prefix_append _ _) short
    exact inside.trans (List.prefix_append source text)
  · obtain ⟨beyond, rfl⟩ :=
      List.prefix_of_prefix_length_le (List.prefix_append _ _) starts long
    have behind := (List.prefix_append_right_inj source).1 starts
    have solid : Solid beyond := fun c hc => h c (List.mem_append_right source hc)
    exact (List.prefix_append_right_inj source).2 (solid.isPrefix_of_spread blank behind)

/-- A text that is spread outside of its lexemes reads as before. -/
theorem lexed_spread (h : Lexed position text spans) (blank : Blank added)
    (outside : Outside added spans) (place : Nat) :
    ∃ others, Lexed place (spread added position text) others ∧
      others.map Span.content = spans.map Span.content := by
  induction h generalizing place with
  | done hgap => exact ⟨[], .done (forall_mem_spread blank hgap), rfl⟩
  | @next position gap front lexeme spans hgap cut behind ih =>
    obtain ⟨inside, outside⟩ := List.forall_mem_cons.1 outside
    obtain ⟨wider, hwider, split⟩ := exists_spread_lexeme blank hgap cut inside
    obtain ⟨others, lexed, same⟩ := ih outside (place + wider.length + lexeme.source.length)
    have here : Cut (lexeme.source ++
        spread added (position + gap.length + lexeme.source.length) lexeme.rest) _ :=
      cut.transfer fun other solid starts =>
        cut.split ▸ solid.isPrefix_append_of_spread blank starts
    have next := Lexed.next hwider here lexed
    rw [← split] at next
    refine ⟨_, next, ?_⟩
    rw [List.map_cons, List.map_cons, same]
    rfl

/-! ## Where spreading is harmless -/

theorem loose_of_blank {c : Char} (blank : isBlank c = true) (text : List Char) :
    Loose (some c) text := by
  intro x hx y hy word
  cases hx
  rw [isWordChar_of_isBlank blank] at word
  cases word

theorem Spaced.blanks {blanks : List Char} (h : Spaced before text text')
    (loose : Loose before text) (blank : ∀ c ∈ blanks, isBlank c = true) :
    Spaced before text (blanks ++ text') := by
  induction blanks with
  | nil => exact h
  | cons c blanks ih =>
    obtain ⟨hc, others⟩ := List.forall_mem_cons.1 blank
    exact .blank hc loose (ih others)

theorem Spaced.append {source : List Char}
    (h : Spaced (source.getLast?.or before) text text') :
    Spaced before (source ++ text) (source ++ text') := by
  induction source generalizing before with
  | nil => exact h
  | cons c source ih =>
    rw [getLast?_cons_or] at h
    exact .keep (ih h)

/-- In a gap white space may be put anywhere. -/
theorem spaced_gap (blank : Blank added) (hgap : ∀ c ∈ gap, isBlank c = true)
    (loose : Loose before (gap ++ text))
    (further : ∀ before, Loose before text →
      Spaced before text (spread added (position + gap.length) text)) :
    Spaced before (gap ++ text) (spread added position (gap ++ text)) := by
  induction gap generalizing before position with
  | nil => exact further before loose
  | cons c gap ih =>
    obtain ⟨hc, others⟩ := List.forall_mem_cons.1 hgap
    have length : position + (c :: gap).length = position + 1 + gap.length := by
      rw [List.length_cons, Nat.add_assoc, Nat.add_comm 1]
    rw [length] at further
    have behind := ih others (loose_of_blank hc (gap ++ text)) further
    exact (Spaced.keep behind).blanks loose (blank position)

/-- No word directly behind a numeral. -/
def Apart (token later : Token) : Prop :=
  token.kind = .number → later.kind ∉ [TokenKind.boolean, .null, .identifier]

theorem loose_of_cut {front : List Char} {lexeme : Lexeme} (cut : Cut front lexeme)
    (behind : Lexed position lexeme.rest spans)
    (apart : ∀ span ∈ spans.head?, lexeme.kind = .number →
      span.token.kind ∉ [TokenKind.boolean, .null, .identifier]) :
    Loose lexeme.source.getLast? lexeme.rest := by
  intro x hx y hy word
  rw [← Bool.not_eq_true]
  intro word'
  have visible : isBlank y = false := (isInk_of_isWordChar word').1
  have first := hy
  generalize here : lexeme.rest = rest at behind first
  cases behind with
  | done blank =>
    rw [blank y (List.mem_of_mem_head? first)] at visible
    cases visible
  | @next _ gap front lexeme' spans blank cut' further =>
    cases gap with
    | nil =>
      rw [List.nil_append] at here
      rw [← here] at cut'
      obtain ⟨number, kind⟩ := cut.joined cut' hx hy word word'
      exact apart _ rfl number kind
    | cons c gap =>
      cases first
      rw [blank y List.mem_cons_self] at visible
      cases visible

theorem spaced_of_lexed (h : Lexed position text spans) (blank : Blank added)
    (outside : Outside added spans) (apart : (spans.map Span.token).IsChain Apart)
    (loose : Loose before text) : Spaced before text (spread added position text) := by
  induction h generalizing before with
  | @done position gap hgap =>
    have ends : ∀ before, Loose before [] →
        Spaced before [] (spread added (position + gap.length) []) := by
      intro before none
      have added := Spaced.nil.blanks none (blank (position + gap.length))
      rwa [List.append_nil] at added
    rw [← List.append_nil gap] at loose ⊢
    exact spaced_gap blank hgap loose ends
  | @next position gap front lexeme spans hgap cut behind ih =>
    obtain ⟨inside, outside⟩ := List.forall_mem_cons.1 outside
    rw [List.map_cons, List.isChain_cons] at apart
    obtain ⟨neighbour, apart⟩ := apart
    refine spaced_gap blank hgap loose fun before loose => ?_
    have tail : Loose (lexeme.source.getLast?.or before) lexeme.rest := by
      rw [Option.or_of_isSome (List.getLast?_isSome.2 cut.source_ne_nil)]
      refine loose_of_cut cut behind fun span hspan => neighbour span.token ?_
      rw [List.head?_map, hspan]
      rfl
    have further := (ih outside apart tail).append
    have stays :=
      @spread_append added (position + gap.length) _ cut.source_ne_nil inside lexeme.rest
    rw [cut.split] at loose ⊢
    rw [stays]
    exact further.blanks loose (blank _)

end

end GuardedExpr
