import GuardedExpr.Proofs.Parse.Names
import GuardedExpr.Proofs.Parse.Spacing
import GuardedExpr.Proofs.Token.Screening

/-!
# Looks into a global

The screen refuses `window` and `document`, whatever the case of their letters, with a dot
or an opening bracket behind them, and as they are spelled here the two are denied as
names. But a parenthesis hides what stands behind it from the screen, and the denied names
are exact words. So a word with a capital, in parentheses of its own, is the only such
object that an expression may look into.
-/

namespace GuardedExpr

open Lexeme

/-! ## Where an access stands among the tokens -/

/-- The object that an expression itself looks into. -/
def Expr.object? : Expr → Option Expr
  | .member object _ => some object
  | .index object _ => some object
  | _ => none

/-- The token is a dot or an opening bracket. -/
def Token.OpensAccess (token : Token) : Prop :=
  token.kind = .dot ∨ token.kind = .leftBracket

namespace Expr

variable {expr part object : Expr} {tokens more : List Token}

theorem mem_parts_of_object? (h : part.object? = some object) : object ∈ part.parts := by
  cases part with
  | member inner property =>
    obtain rfl := Option.some.inj h
    exact mem_parts_of_mem_operands List.mem_cons_self
  | index inner key =>
    obtain rfl := Option.some.inj h
    exact mem_parts_of_mem_operands List.mem_cons_self
  | _ => cases h

/-- Somewhere among the tokens stands a phrase for the object with an
opening token behind it. -/
def IsOpenedIn (object : Expr) (tokens : List Token) : Prop :=
  ∃ room us opener, us ++ [opener] <:+: tokens ∧ opener.OpensAccess ∧
    Derives .access room us object

/-- So it does for every object that a part of the expression looks into. -/
def AccessesIn (expr : Expr) (tokens : List Token) : Prop :=
  ∀ part ∈ expr.parts, ∀ object, part.object? = some object → object.IsOpenedIn tokens

theorem AccessesIn.mono (h : expr.AccessesIn tokens) (among : tokens <:+: more) :
    expr.AccessesIn more := by
  intro part place object looks
  obtain ⟨room, us, opener, inside, found⟩ := h part place object looks
  exact ⟨room, us, opener, inside.trans among, found⟩

theorem AccessesIn.of_operands
    (own : ∀ object, expr.object? = some object → object.IsOpenedIn tokens)
    (inside : ∀ operand ∈ expr.operands, operand.AccessesIn tokens) :
    expr.AccessesIn tokens := by
  intro part place object looks
  rcases mem_parts_iff.1 place with rfl | ⟨operand, member, deeper⟩
  · exact own object looks
  · exact inside operand member part deeper object looks

theorem AccessesIn.of_plain (plain : expr.object? = none)
    (inside : ∀ operand ∈ expr.operands, operand.AccessesIn tokens) :
    expr.AccessesIn tokens := by
  refine .of_operands (fun object looks => ?_) inside
  rw [plain] at looks
  cases looks

end Expr

section

variable {category : Category} {room : Nat} {us : List Token} {e : Expr} {name : String}

/-- In a phrase the object of every access has a phrase of its own, directly in front of
what opens the access. -/
theorem Derives.accessesIn (h : Derives category room us e) : e.AccessesIn us := by
  induction h with
  | tighter _ _ ih => exact ih
  | @choice _ us vs ws question colon _ _ _ _ _ _ _ _ iht ihc iha =>
    refine .of_plain rfl ?_
    simp only [Expr.operands, List.forall_mem_cons]
    refine ⟨iht.mono (List.prefix_append _ _).isInfix, ihc.mono ?_, iha.mono ?_,
      List.forall_mem_nil _⟩
    · exact ⟨us ++ [question], colon :: ws, by simp⟩
    · exact ⟨us ++ question :: (vs ++ [colon]), [], by simp⟩
  | @operation _ _ us vs _ _ token _ _ _ _ _ _ ihl ihr =>
    refine .of_plain rfl ?_
    simp only [Expr.operands, List.forall_mem_cons]
    refine ⟨ihl.mono (List.prefix_append _ _).isInfix, ihr.mono ?_, List.forall_mem_nil _⟩
    exact ⟨us ++ [token], [], by simp⟩
  | not _ _ ih =>
    refine .of_plain rfl ?_
    simp only [Expr.operands, List.forall_mem_cons]
    exact ⟨ih.mono (List.suffix_cons _ _).isInfix, List.forall_mem_nil _⟩
  | neg _ _ ih =>
    refine .of_plain rfl ?_
    simp only [Expr.operands, List.forall_mem_cons]
    exact ⟨ih.mono (List.suffix_cons _ _).isInfix, List.forall_mem_nil _⟩
  | @member room us dot name e hdot _ he ih =>
    refine .of_operands ?_ ?_
    · rintro _ ⟨⟩
      exact ⟨room, us, dot, ⟨[], [name], by simp⟩, .inl hdot, he⟩
    · simp only [Expr.operands, List.forall_mem_cons]
      exact ⟨ih.mono (List.prefix_append _ _).isInfix, List.forall_mem_nil _⟩
  | @index room us vs left right e key hleft _ he _ ihe ihkey =>
    refine .of_operands ?_ ?_
    · rintro _ ⟨⟩
      exact ⟨room + 1, us, left, ⟨[], vs ++ [right], by simp⟩, .inr hleft, he⟩
    · simp only [Expr.operands, List.forall_mem_cons]
      refine ⟨ihe.mono (List.prefix_append _ _).isInfix, ihkey.mono ?_,
        List.forall_mem_nil _⟩
      exact ⟨us ++ [left], [right], by simp⟩
  | @parens _ us left right _ _ _ _ ih => exact ih.mono ⟨[left], [right], rfl⟩
  | _ => exact .of_plain rfl (List.forall_mem_nil _)

/-- The tokens are a word with so many pairs of parentheses around it. -/
inductive InParens (word : Token) : Nat → List Token → Prop
  | bare : InParens word 0 [word]
  | parens {depth : Nat} {us : List Token} {left right : Token}
      (hleft : left.kind = .leftParen)
      (hright : right.kind = .rightParen) (h : InParens word depth us) :
      InParens word (depth + 1) (left :: (us ++ [right]))

/-- Only a word stands for a name, perhaps in parentheses. -/
theorem Derives.inParens (h : Derives category room us (.identifier name)) :
    ∃ word depth, InParens word depth us ∧ word.kind = .identifier ∧ word.text = name := by
  generalize named : Expr.identifier name = e at h
  induction h with
  | tighter _ _ ih => exact ih named
  | identifier kind =>
    cases named
    exact ⟨_, 0, .bare, kind, rfl⟩
  | parens hleft hright _ ih =>
    obtain ⟨word, depth, inside, found⟩ := ih named
    exact ⟨word, depth + 1, .parens hleft hright inside, found⟩
  | _ => cases named

end

/-! ## What the screen makes of two neighbours -/

/-- The objects of a browser that hold everything else. -/
def globals : List String := ["window", "document"]

/-- The name is one of them up to ASCII case. -/
def NamesGlobal (name : String) : Prop :=
  ∃ global ∈ globals, asciiLower name.toList = global.toList

theorem access_mem_forbiddenUses : ∀ global ∈ globals, .access global ∈ forbiddenUses := by
  decide

theorem mem_deniedKeys_of_mem_globals : ∀ global ∈ globals, global ∈ deniedKeys := by
  decide

theorem spells_foldsTo_of_asciiLower {name part : List Char} (h : asciiLower part = name) :
    Spells foldsTo name part := by
  refine List.Forall₂.imp (fun letter c same => ?_) (spells_sameLetter_iff.2 h)
  rw [foldsTo, Bool.or_assoc, Bool.or_eq_true]
  exact .inl same

theorem StandsIn.behind {P : Option Char → List Char → Prop} {before : Option Char}
    {front text : List Char} (h : StandsIn P (front.getLast?.or before) text) :
    StandsIn P before (front ++ text) := by
  obtain ⟨first, part, rest, rfl, found⟩ := h
  refine ⟨front ++ first, part, rest, (List.append_assoc _ _ _).symm, ?_⟩
  rwa [List.getLast?_append, Option.or_assoc]

theorem Loose.behind_gap {before : Option Char} {gap text : List Char}
    (h : Loose before (gap ++ text)) (blank : ∀ c ∈ gap, isBlank c = true) :
    Loose (gap.getLast?.or before) text := by
  cases ending : gap.getLast? with
  | none =>
    rw [List.getLast?_eq_none_iff.1 ending] at h
    exact h
  | some c => exact loose_of_blank (blank c (List.mem_of_getLast? ending)) text

namespace Lexeme

variable {front : List Char} {lexeme : Lexeme}

theorem Cut.source_of_identifier (h : Cut front lexeme) (kind : lexeme.kind = .identifier) :
    lexeme.source = lexeme.text := by
  cases h with
  | string => cases kind
  | _ => rfl

theorem Cut.source_of_opensAccess (h : Cut front lexeme)
    (kind : lexeme.kind = .dot ∨ lexeme.kind = .leftBracket) :
    ∃ mark ∈ ['.', '['], lexeme.source = [mark] := by
  cases h with
  | @word source =>
    have among := wordKind_mem source
    rcases kind with kind | kind
    · rw [show wordKind source = .dot from kind] at among
      exact absurd among (by decide)
    · rw [show wordKind source = .leftBracket from kind] at among
      exact absurd among (by decide)
  | @mark c _ _ h =>
    have marks : ∀ c ∈ ['.', '(', ')', '[', ']', ':'],
        punctuation? c = some .dot ∨ punctuation? c = some .leftBracket →
        c ∈ ['.', '['] := by
      decide
    refine ⟨c, marks c (mem_of_punctuation? h) ?_, rfl⟩
    rw [h]
    exact kind.imp (congrArg some) (congrArg some)
  | _ => rcases kind with kind | kind <;> cases kind

end Lexeme

section

variable {position : Nat} {before : Option Char} {text : List Char} {spans : List Span}
  {word opener : Token}

/-- A global at the front of a text, and behind it what opens an access. -/
theorem standsIn_forbidden_of_cut {lexeme : Lexeme} (cut : Cut text lexeme)
    (loose : Loose before text) (kind : lexeme.kind = .identifier)
    (global : NamesGlobal (String.ofList lexeme.text))
    (behind : Lexed position lexeme.rest spans) (next : [opener] <+: spans.map Span.token)
    (opens : opener.OpensAccess) : StandsIn Forbidden before text := by
  obtain ⟨global, member, same⟩ := global
  rw [String.toList_ofList, ← cut.source_of_identifier kind] at same
  have spells := spells_foldsTo_of_asciiLower same
  have forbidden := access_mem_forbiddenUses global member
  have letters := isWordChar_of_spells forbidden rfl spells
  have split := cut.split
  generalize lexeme.rest = rest at behind split
  cases behind with
  | done => exact absurd (List.prefix_nil.1 next) (List.cons_ne_nil _ _)
  | @next _ gap front lexeme' spans blank cut' further =>
    obtain ⟨rfl, -⟩ := List.cons_prefix_cons.1 next
    obtain ⟨mark, marks, source⟩ := cut'.source_of_opensAccess opens
    rw [cut'.split, source] at split
    obtain ⟨c, tail, first⟩ := List.exists_cons_of_ne_nil cut.source_ne_nil
    have fresh : ∀ x ∈ before, isWordChar x = false := by
      intro x hx
      rw [← Bool.not_eq_true]
      intro joined
      have other := loose x hx c (by rw [split, first]; rfl) joined
      rw [letters c (by rw [first]; exact List.mem_cons_self)] at other
      cases other
    refine ⟨[], lexeme.source ++ (gap ++ [mark]), lexeme'.rest,
      by simp [split], .inr ⟨_, forbidden, ?_⟩⟩
    exact .named rfl fresh spells blank marks

/-- Where no word stands directly behind a numeral, a global directly in front of what
opens an access makes a forbidden pattern. -/
theorem standsIn_forbidden_of_lexed (h : Lexed position text spans)
    (apart : (spans.map Span.token).IsChain Apart) (loose : Loose before text)
    (neighbours : [word, opener] <:+: spans.map Span.token)
    (kind : word.kind = .identifier) (global : NamesGlobal word.text)
    (opens : opener.OpensAccess) : StandsIn Forbidden before text := by
  -- Along the reading the character in front of the text is kept, as a pattern may
  -- stand behind no word.
  induction h generalizing before with
  | done => exact absurd (List.eq_nil_of_infix_nil neighbours) (List.cons_ne_nil _ _)
  | @next position gap front lexeme spans blank cut behind ih =>
    rw [List.map_cons] at apart neighbours
    obtain ⟨neighbour, apart⟩ := List.isChain_cons.1 apart
    refine StandsIn.behind ?_
    rcases List.infix_cons_iff.1 neighbours with here | further
    · obtain ⟨rfl, next⟩ := List.cons_prefix_cons.1 here
      exact standsIn_forbidden_of_cut cut
        (loose.behind_gap blank) kind global behind next opens
    · have tail : Loose lexeme.source.getLast? lexeme.rest := by
        refine loose_of_cut cut behind fun span hspan => neighbour span.token ?_
        rw [List.head?_map, hspan]
        rfl
      have deeper := ih apart tail further
      rw [cut.split]
      refine StandsIn.behind ?_
      rwa [Option.or_of_isSome (List.getLast?_isSome.2 cut.source_ne_nil)]

end

/-! ## Accesses of a source -/

variable {source : String} {limits : SourceLimits} {e part : Expr} {name : String}
  {tokens : List Token}
  {word opener : Token}

/-- What an expression looks into is never called as a global is. -/
theorem not_mem_globals_of_parseSource (parsed : parseSource source limits = .ok e)
    (place : part ∈ e.parts) (looks : part.object? = some (.identifier name)) :
    name ∉ globals := by
  intro global
  have inside := Expr.mem_parts_trans place (Expr.mem_parts_of_object? looks)
  obtain ⟨safe, -⟩ := isUsableName_of_parseSource parsed inside rfl
  exact (isSafeKey_iff.1 safe).2.1 (mem_deniedKeys_of_mem_globals name global)

/-- No token of a source that stands for an expression is a global directly in front of
what opens an access. -/
theorem not_opensAccess_of_parseSource (parsed : parseSource source limits = .ok e)
    (scanned : tokenize source limits = .ok tokens)
    (neighbours : [word, opener] <:+: tokens) (kind : word.kind = .identifier)
    (global : NamesGlobal word.text) : ¬ opener.OpensAccess := by
  intro opens
  obtain ⟨admissible, spans, lexed, few, derives⟩ := parseSource_eq_ok_iff.1 parsed
  have read := tokenize_eq_ok_iff.2 ⟨admissible, spans, lexed, few, rfl⟩
  obtain rfl := Except.ok.inj (scanned.symm.trans read)
  have inside : [word, opener] <:+: spans.map Span.token := by
    rcases List.infix_concat_iff.1 neighbours with ⟨front, ends⟩ | inside
    · have last := congrArg List.getLast? ends
      rw [List.getLast?_concat, List.getLast?_append_cons] at last
      obtain rfl := Option.some.inj last
      rcases opens with other | other <;> cases other
    · exact inside
  have loose : Loose none source.toList := by
    rintro x ⟨⟩
  have stands :=
    standsIn_forbidden_of_lexed lexed derives.isChain_apart loose inside kind global opens
  exact screen_eq_none_iff.1 admissible.screened stands

/-- An expression looks into no variable named `window` or `document`. It looks into one
that is named so up to case only where the name stands in parentheses of its own, in front
of the dot or the bracket, and nowhere does such a name stand there without them. -/
theorem globals_only_in_parens (parsed : parseSource source limits = .ok e) :
    ∃ tokens, tokenize source limits = .ok tokens ∧
      (∀ part ∈ e.parts, ∀ name, part.object? = some (.identifier name) →
        name ≠ "window" ∧ name ≠ "document" ∧
          (NamesGlobal name → ∃ word depth us opener, word.kind = .identifier ∧
            word.text = name ∧ InParens word (depth + 1) us ∧ opener.OpensAccess ∧
            us ++ [opener] <:+: tokens)) ∧
      ∀ word opener, [word, opener] <:+: tokens → word.kind = .identifier →
        NamesGlobal word.text → ¬ opener.OpensAccess := by
  obtain ⟨admissible, spans, lexed, few, derives⟩ := parseSource_eq_ok_iff.1 parsed
  have scanned := tokenize_eq_ok_iff.2 ⟨admissible, spans, lexed, few, rfl⟩
  refine ⟨_, scanned, fun part place name looks => ?_,
    fun _ _ => not_opensAccess_of_parseSource parsed scanned⟩
  have other := not_mem_globals_of_parseSource parsed place looks
  refine ⟨fun same => other (by simp [same, globals]),
    fun same => other (by simp [same, globals]), ?_⟩
  intro global
  obtain ⟨room, us, opener, inside, opens, object⟩ := derives.accessesIn part place _ looks
  obtain ⟨word, depth, parens, kind, text⟩ := object.inParens
  have among := inside.trans (List.prefix_append _ [Token.endAt source.length]).isInfix
  cases parens with
  | bare =>
    exact absurd opens
      (not_opensAccess_of_parseSource parsed scanned among kind (text ▸ global))
  | parens hleft hright parens =>
    exact ⟨word, _, _, opener, kind, text, .parens hleft hright parens, opens, among⟩

theorem parseSource_window_in_parens :
    parseSource "(Window).x" = .ok (.member (.identifier "Window") "x") := by
  have scanned :
      tokenize "(Window).x" = .ok [⟨.leftParen, "(", 0⟩, ⟨.identifier, "Window", 1⟩,
        ⟨.rightParen, ")", 7⟩, ⟨.dot, ".", 8⟩, ⟨.identifier, "x", 9⟩, Token.endAt 10] := by
    rfl
  let object : List Token :=
    ⟨.leftParen, "(", 0⟩ :: ([⟨.identifier, "Window", 1⟩] ++ [⟨.rightParen, ")", 7⟩])
  have word : Derives .conditional 63 [⟨.identifier, "Window", 1⟩] (.identifier "Window") :=
    Derives.of_primary (.identifier rfl) _
  have parens : Derives .primary maxNesting object (.identifier "Window") :=
    .parens rfl rfl word
  have member :
      Derives .access maxNesting (object ++ [⟨.dot, ".", 8⟩, ⟨.identifier, "x", 9⟩])
        (.member (.identifier "Window") "x") :=
    .member rfl rfl (parens.of_primary .access)
  rw [parseSource, scanned]
  exact parse_eq_ok_of_derives member.loosest

theorem globals_only_in_parens_capital :
    let e : Expr := .member (.identifier "Window") "x"
    parseSource "(Window).x" = .ok e ∧ e ∈ e.parts ∧
      e.object? = some (.identifier "Window") ∧ NamesGlobal "Window" ∧
      ∃ tokens, tokenize "(Window).x" = .ok tokens ∧
        ∃ word depth us opener, word.kind = .identifier ∧
        word.text = "Window" ∧ InParens word (depth + 1) us ∧ opener.OpensAccess ∧
          us ++ [opener] <:+: tokens ∧ ¬ [word, opener] <:+: tokens := by
  intro e
  have place := Expr.self_mem_parts e
  have global : NamesGlobal "Window" := ⟨"window", by decide, by decide⟩
  obtain ⟨tokens, scanned, looks, bare⟩ :=
    globals_only_in_parens parseSource_window_in_parens
  obtain ⟨-, -, wrapped⟩ := looks e place "Window" rfl
  obtain ⟨word, depth, us, opener, kind, text, parens, opens, among⟩ := wrapped global
  refine ⟨parseSource_window_in_parens, place, rfl, global, tokens, scanned, word,
    depth, us, opener, kind, text, parens, opens, among, fun neighbours => ?_⟩
  exact bare word opener neighbours kind (text ▸ global) opens

/-- An expression may look into a variable that is named as a global up to case. -/
theorem capital_global_accepted :
    parseSource "(Window).x" = .ok (.member (.identifier "Window") "x") ∧
      ¬ ∀ source limits e, parseSource source limits = .ok e → ∀ part ∈ e.parts, ∀ name,
        part.object? = some (.identifier name) → ¬ NamesGlobal name := by
  refine ⟨parseSource_window_in_parens, fun never => ?_⟩
  have global : NamesGlobal "Window" := ⟨"window", by decide, by decide⟩
  exact never _ _ _ parseSource_window_in_parens _
    (Expr.self_mem_parts _) "Window" rfl global

end GuardedExpr
