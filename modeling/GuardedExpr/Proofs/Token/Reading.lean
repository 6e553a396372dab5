import GuardedExpr.Proofs.Token.Cut

/-!
# Readings

`Lexed position text spans` says that a text at a place is cut into lexemes with white
space between them, whatever the limits. A source is tokenized if it passes the checks and
has such a reading with not too many tokens, and then the tokens are those of the reading.
Readings of two texts make one of both, where a separator stands at the seam.
-/

namespace GuardedExpr

open Lexeme

/-- The text, which stands at the place, is cut into these spans. -/
inductive Lexed : Nat → List Char → List Span → Prop
  | done {position : Nat} {gap : List Char} (blank : ∀ c ∈ gap, isBlank c = true) :
      Lexed position gap []
  | next {position : Nat} {gap front : List Char} {lexeme : Lexeme} {spans : List Span}
      (blank : ∀ c ∈ gap, isBlank c = true) (cut : Cut front lexeme)
      (behind : Lexed (position + gap.length + lexeme.source.length) lexeme.rest spans) :
      Lexed position (gap ++ front) (lexeme.spanAt (position + gap.length) :: spans)

variable {limits : SourceLimits} {source text more : List Char} {position : Nat}
  {spans : List Span}

theorem Lexed.cons {lexeme : Lexeme} (cut : Cut text lexeme)
    (behind : Lexed (position + lexeme.source.length) lexeme.rest spans) :
    Lexed position text (lexeme.spanAt position :: spans) := by
  have next : Lexed position ([] ++ text) (lexeme.spanAt position :: spans) :=
    .next (List.forall_mem_nil _) cut behind
  exact next

/-! ## Scanning is reading -/

theorem lexed_of_scanFrom {fuel room : Nat} {tokens : List Token}
    (hfuel : text.length ≤ fuel)
    (h : scanFrom limits source fuel room position text = .ok tokens) :
    ∃ spans, Lexed position text spans ∧ spans.length ≤ room ∧
      tokens = spans.map Span.token ++ [Token.endAt (position + text.length)] := by
  induction fuel generalizing room position text tokens with
  | zero =>
    obtain rfl : text = [] := List.eq_nil_of_length_eq_zero (Nat.le_zero.1 hfuel)
    exact ⟨[], .done (List.forall_mem_nil _), Nat.zero_le room, (Except.ok.inj h).symm⟩
  | succ fuel ih =>
    have split : text.takeWhile isBlank ++ text.dropWhile isBlank = text :=
      List.takeWhile_append_dropWhile
    have blank : ∀ c ∈ text.takeWhile isBlank, isBlank c = true :=
      List.all_eq_true.1 List.all_takeWhile
    rcases scanFrom_succ_eq_ok h with
      ⟨none, rfl⟩ | ⟨c, rest, lexeme, fewer, further, front, rfl, read, scanned, rfl⟩
    · rw [none, List.append_nil] at split
      rw [split] at blank ⊢
      exact ⟨[], .done blank, Nat.zero_le room, rfl⟩
    · have cut := cut_of_lexeme? read
      rw [← front] at cut
      have positive : 0 < lexeme.source.length := List.length_pos_iff.2 cut.source_ne_nil
      have length : text.length =
          (text.takeWhile isBlank).length + (lexeme.source.length + lexeme.rest.length) := by
        rw [← List.length_append, ← cut.split, ← List.length_append, split]
      obtain ⟨spans, lexed, short, rfl⟩ := ih (by omega) scanned
      have next := Lexed.next blank cut lexed
      rw [split] at next
      refine ⟨_, next, Nat.succ_le_succ short, ?_⟩
      rw [length, List.map_cons, List.cons_append, ← Nat.add_assoc, ← Nat.add_assoc]

theorem scanFrom_of_lexed (h : Lexed position text spans) {fuel room : Nat}
    (hfuel : text.length ≤ fuel) (hroom : spans.length ≤ room) :
    scanFrom limits source fuel room position text =
      .ok (spans.map Span.token ++ [Token.endAt (position + text.length)]) := by
  induction h generalizing fuel room with
  | @done position gap blank =>
    have empty : ∀ c ∈ ([] : List Char).head?, isBlank c = false := fun _ none =>
      nomatch none
    have whole := takeWhile_isBlank blank empty
    have none := dropWhile_isBlank blank empty
    rw [List.append_nil] at whole none
    cases fuel with
    | zero =>
      obtain rfl : gap = [] := List.eq_nil_of_length_eq_zero (Nat.le_zero.1 hfuel)
      rfl
    | succ fuel =>
      rw [scanFrom, whole, none]
      rfl
  | @next position gap front lexeme spans blank cut behind ih =>
    obtain ⟨c, rest, rfl, read⟩ := exists_lexeme?_of_cut cut
    have positive : 0 < lexeme.source.length := List.length_pos_iff.2 cut.source_ne_nil
    have length : (c :: rest).length = lexeme.source.length + lexeme.rest.length := by
      rw [cut.split, List.length_append]
    rw [List.length_append, length] at hfuel ⊢
    cases fuel with
    | zero => omega
    | succ fuel =>
      cases room with
      | zero => cases hroom
      | succ room =>
        rw [scanFrom, takeWhile_isBlank blank cut.isBlank_head?,
          dropWhile_isBlank blank cut.isBlank_head?]
        simp only [read]
        rw [ih (by omega) (Nat.le_of_succ_le_succ hroom), ← Nat.add_assoc, ← Nat.add_assoc]
        rfl

/-- A text reads in one way. -/
theorem Lexed.unique {others : List Span} (h : Lexed position text spans)
    (h' : Lexed position text others) : spans.map Span.token = others.map Span.token := by
  have fewer := Nat.le_max_left spans.length others.length
  have fewer' := Nat.le_max_right spans.length others.length
  have scanned :
      scanFrom {} [] text.length (max spans.length others.length) position text = .ok _ :=
    scanFrom_of_lexed h (Nat.le_refl _) fewer
  rw [scanFrom_of_lexed h' (Nat.le_refl _) fewer'] at scanned
  exact (List.append_cancel_right (Except.ok.inj scanned)).symm

theorem Lexed.eq_nil (h : Lexed position [] spans) : spans = [] := by
  generalize empty : [] = text at h
  cases h with
  | done => rfl
  | next _ cut _ =>
    obtain ⟨-, none⟩ := List.append_eq_nil_iff.1 empty.symm
    rw [cut.split] at none
    exact absurd (List.append_eq_nil_iff.1 none).1 cut.source_ne_nil

/-- A text that is a word reads as that word. -/
theorem Lexed.of_isWord (word : IsWord text) (h : Lexed position text spans) :
    spans.map Span.token = [⟨wordKind text, String.ofList text, position⟩] := by
  have visible := (solid_of_isWord word).isBlank_head?
  have starts : ∀ {gap front : List Char}, (∀ c ∈ gap, isBlank c = true) →
      (∀ c ∈ (gap ++ front).head?, isBlank c = false) → gap = [] := by
    intro gap front blank first
    cases gap with
    | nil => rfl
    | cons c gap =>
      have other := first c rfl
      rw [blank c List.mem_cons_self] at other
      cases other
  cases h with
  | done blank =>
    rw [← List.append_nil text] at visible
    exact absurd (starts blank visible) word.ne_nil
  | next blank cut behind =>
    obtain rfl := starts blank visible
    obtain ⟨-, rfl⟩ := cut.of_isWord word
    rw [behind.eq_nil]
    rfl

/-- What is asked of a source as a whole. -/
structure Admissible (limits : SourceLimits) (source : List Char) : Prop where
  short : source.length ≤ limits.maxLength
  allowed : ∀ c ∈ source, isForbiddenChar c = false
  screened : screen source = none

theorem checkSource_eq_ok_iff :
    checkSource limits source = .ok () ↔ Admissible limits source := by
  rw [checkSource]
  split
  case isTrue long =>
    refine ⟨fun h => ?_, fun h => absurd h.short (Nat.not_le.2 long)⟩
    cases h
  case isFalse short =>
    split
    case h_1 c found =>
      refine ⟨fun h => (nomatch h), fun h => ?_⟩
      have allowed := h.allowed c (List.mem_of_find?_eq_some found)
      rw [List.find?_some found] at allowed
      cases allowed
    case h_2 none =>
      have allowed : ∀ c ∈ source, isForbiddenChar c = false := fun c hc =>
        Bool.eq_false_iff.2 (List.find?_eq_none.1 none c hc)
      split
      case h_1 pattern found =>
        refine ⟨fun h => (nomatch h), fun h => ?_⟩
        rw [h.screened] at found
        cases found
      case h_2 screened =>
        exact ⟨fun _ => ⟨Nat.not_lt.1 short, allowed, screened⟩, fun _ => rfl⟩

/-- A source has tokens if it is admissible and can be read with not too many of them. -/
theorem tokenize_eq_ok_iff {source : String} {tokens : List Token} :
    tokenize source limits = .ok tokens ↔ Admissible limits source.toList ∧
      ∃ spans, Lexed 0 source.toList spans ∧ spans.length ≤ limits.maxTokens ∧
        tokens = spans.map Span.token ++ [Token.endAt source.length] := by
  have length : 0 + source.toList.length = source.length := by
    rw [Nat.zero_add, String.length_toList]
  constructor
  · intro h
    rw [tokenize] at h
    split at h
    case h_1 => cases h
    case h_2 checked =>
      have lexed := lexed_of_scanFrom (Nat.le_refl _) h
      rw [length] at lexed
      exact ⟨checkSource_eq_ok_iff.1 checked, lexed⟩
  · rintro ⟨admissible, spans, lexed, few, rfl⟩
    rw [tokenize, checkSource_eq_ok_iff.2 admissible]
    show scanFrom limits _ _ _ _ _ = _
    rw [scanFrom_of_lexed lexed (Nat.le_refl _) few, length]

/-! ## The same text at another place -/

/-- What a token says, wherever it stands. -/
def Token.content (token : Token) : TokenKind × String :=
  (token.kind, token.text)

def Span.content (span : Span) : TokenKind × String :=
  span.token.content

theorem Lexed.kind_ne_endOfInput (h : Lexed position text spans) :
    ∀ span ∈ spans, span.token.kind ≠ .endOfInput := by
  induction h with
  | done => exact List.forall_mem_nil _
  | next _ cut _ ih => exact List.forall_mem_cons.2 ⟨cut.kind_ne_endOfInput, ih⟩

/-- A text reads the same wherever it stands. -/
theorem Lexed.moved (h : Lexed position text spans) (place : Nat) :
    ∃ others, Lexed place text others ∧
      others.map Span.content = spans.map Span.content := by
  induction h generalizing place with
  | done blank => exact ⟨[], .done blank, rfl⟩
  | @next position gap front lexeme spans blank cut behind ih =>
    obtain ⟨others, lexed, same⟩ := ih (place + gap.length + lexeme.source.length)
    refine ⟨_, .next blank cut lexed, ?_⟩
    rw [List.map_cons, List.map_cons, same]
    rfl

/-! ## One text behind another -/

/-- White space in front of a text goes into the gap in front of its first lexeme. -/
theorem Lexed.blank_append {gap : List Char} (blank : ∀ c ∈ gap, isBlank c = true)
    (h : Lexed (position + gap.length) text spans) : Lexed position (gap ++ text) spans := by
  cases h with
  | done behind => exact .done (List.forall_mem_append.2 ⟨blank, behind⟩)
  | @next _ wider front lexeme spans behind cut further =>
    have length :
        position + gap.length + wider.length = position + (gap ++ wider).length := by
      rw [List.length_append, Nat.add_assoc]
    rw [length] at further ⊢
    rw [← List.append_assoc]
    exact .next (List.forall_mem_append.2 ⟨blank, behind⟩) cut further

theorem Lexed.append {others : List Span} (h : Lexed position text spans)
    (hmore : Lexed (position + text.length) more others) (seam : Seam text more) :
    Lexed position (text ++ more) (spans ++ others) := by
  induction h with
  | done blank => exact hmore.blank_append blank
  | @next position gap front lexeme spans blank cut behind ih =>
    have nonempty : front ≠ [] := by
      rw [cut.split]
      exact List.append_ne_nil_of_left_ne_nil cut.source_ne_nil _
    have longer : Cut (front ++ more) { lexeme with rest := lexeme.rest ++ more } := by
      rw [cut.split, List.append_assoc]
      refine cut.transfer fun other solid starts => ?_
      rw [← List.append_assoc, ← cut.split] at starts
      exact solid.isPrefix_of_seam seam.of_append nonempty starts
    have further := seam.of_append
    rw [cut.split] at further
    have length : position + (gap ++ front).length =
        position + gap.length + lexeme.source.length + lexeme.rest.length := by
      rw [cut.split, List.length_append, List.length_append]
      omega
    rw [length] at hmore
    have next := Lexed.next blank longer (ih hmore further.of_append)
    rw [← List.append_assoc] at next
    exact next

end GuardedExpr
