import GuardedExpr.Proofs.Expr.Hoisted
import GuardedExpr.Proofs.Parse.Completeness
import GuardedExpr.Proofs.Parse.Phrase
import GuardedExpr.Proofs.Parse.Source
import GuardedExpr.Value.Comparison

/-!
# Reading a shown expression

The lexemes of a shown expression are a phrase for it, with every number as it is read back
from its text, if no unary operation is accessed: its operator is shown without
parentheses, and would be taken for one in front of the whole access. So a shown expression
that keeps to the limits is read as the expression that it shows.
-/

namespace GuardedExpr

open Lexeme

/-! ## Literals -/

namespace Value

/-- The text of the value reads back as a literal that equals it. -/
inductive ReadsBack : Value → Prop
  | null : ReadsBack .null
  | bool (b : Bool) : ReadsBack (.bool b)
  | text {s : String} (h : Quoted.KnownEscapes s.toList) : ReadsBack (.text s)
  | number {x y : Float} (numeral : IsNumeral (numberStyle.write x).toList)
      (read : readDouble? (numberStyle.write x).toList = some y) (same : (y == x) = true) :
      ReadsBack (.number x)

/-- The value as it is read back: a number may come back as another that equals it. -/
def reread : Value → Value
  | .number x => .number ((readDouble? (numberStyle.write x).toList).getD x)
  | v => v

variable {v : Value}

theorem ReadsBack.strictEq_reread (h : v.ReadsBack) : v.reread.strictEq v = true := by
  cases h with
  | null => rfl
  | bool b => cases b <;> rfl
  | text => exact beq_self_eq_true _
  | number numeral read same =>
    rw [reread, read]
    exact same

theorem ReadsBack.cut_lexeme (h : v.ReadsBack) : Cut v.lexeme.source v.lexeme := by
  cases h with
  | null => exact Value.cut_lexeme (.inl rfl) nofun
  | bool b => exact Value.cut_lexeme (.inr rfl) nofun
  | text => exact Value.cut_lexeme (.inr rfl) nofun
  | number numeral =>
    refine Value.cut_lexeme (.inr rfl) ?_
    rintro _ ⟨⟩
    exact numeral

/-- The lexeme of a literal is a phrase for what is read back. -/
theorem ReadsBack.derives (h : v.ReadsBack) (room : Nat) :
    Derives .primary room [v.lexeme.token] (.literal v.reread) := by
  cases h with
  | null => exact .null rfl
  | bool b => cases b <;> exact .boolean rfl
  | @text s known =>
    have text : (Value.text s).lexeme.token.text = s := by
      show String.ofList (unescaped (Quoted.encode s.toList)) = s
      rw [Quoted.unescaped_encode known, String.ofList_toList]
    have derives : Derives .primary room [(Value.text s).lexeme.token] _ := .string rfl
    rwa [text] at derives
  | @number x y numeral read same =>
    rw [reread, read]
    refine .number rfl ?_
    show readDouble? (String.ofList (numberStyle.write x).toList).toList = some y
    rwa [String.toList_ofList]

end Value

namespace Expr

/-- The expression with every literal as it is read back. -/
def reread : Expr → Expr
  | .literal v => .literal v.reread
  | .identifier name => .identifier name
  | .binary op l r => .binary op l.reread r.reread
  | .unary op e => .unary op e.reread
  | .member e property => .member e.reread property
  | .index e key => .index e.reread key.reread
  | .conditional t c a => .conditional t.reread c.reread a.reread

/-- Two expressions are built in the same way from equal literals. -/
inductive Same : Expr → Expr → Prop
  | literal {v w : Value} (h : v.strictEq w = true) : Same (.literal v) (.literal w)
  | identifier (name : String) : Same (.identifier name) (.identifier name)
  | binary {l l' r r' : Expr} (op : BinaryOp) (hl : Same l l') (hr : Same r r') :
      Same (.binary op l r) (.binary op l' r')
  | unary {e e' : Expr} (op : UnaryOp) (h : Same e e') : Same (.unary op e) (.unary op e')
  | member {e e' : Expr} (property : String) (h : Same e e') :
      Same (.member e property) (.member e' property)
  | index {e e' key key' : Expr} (he : Same e e') (hkey : Same key key') :
      Same (.index e key) (.index e' key')
  | conditional {t t' c c' a a' : Expr} (ht : Same t t') (hc : Same c c') (ha : Same a a') :
      Same (.conditional t c a) (.conditional t' c' a')

/-- How deep parentheses, brackets and branches nest in what is shown of an expression. A
choice has parentheses, and its branches count besides them. -/
def shownNesting : Expr → Nat
  | .literal _ => 0
  | .identifier _ => 0
  | .binary _ l r => max l.shownNesting r.shownNesting + 1
  | .unary _ e => e.shownNesting
  | .member e _ => e.shownNesting
  | .index e key => max e.shownNesting (key.shownNesting + 1)
  | .conditional t c a => max t.shownNesting (max c.shownNesting a.shownNesting + 1) + 1

variable {e : Expr}

theorem same_reread (h : e.AllLiterals Value.ReadsBack) : e.reread.Same e := by
  induction e, h using inherited_induction with
  | inherit e h operand place => exact h.operand place
  | literal v h => exact .literal (h v (self_mem_parts _)).strictEq_reread
  | identifier name _ => exact .identifier name
  | binary op l r _ _ _ ihl ihr => exact .binary op ihl ihr
  | unary op e _ _ ih => exact .unary op ih
  | member e property _ _ ih => exact .member property ih
  | index e key _ _ _ ihe ihkey => exact .index ihe ihkey
  | conditional t c a _ _ _ _ iht ihc iha => exact .conditional iht ihc iha

theorem reread_eq_self (h : e.AllLiterals fun v => v.reread = v) : e.reread = e := by
  induction e, h using inherited_induction with
  | inherit e h operand place => exact h.operand place
  | literal v h => rw [reread, h v (self_mem_parts _)]
  | identifier name _ => rfl
  | binary op l r _ _ _ ihl ihr => rw [reread, ihl, ihr]
  | unary op e _ _ ih => rw [reread, ih]
  | member e property _ _ ih => rw [reread, ih]
  | index e key _ _ _ ihe ihkey => rw [reread, ihe, ihkey]
  | conditional t c a _ _ _ _ iht ihc iha => rw [reread, iht, ihc, iha]

end Expr

/-! ## The phrase -/

namespace Expr

variable {e : Expr}

def tokens (e : Expr) : List Token :=
  e.lexemes.map Lexeme.token

/-- No access is to a unary operation, and every literal reads back. -/
structure Rereadable (expr : Expr) : Prop where
  accesses : expr.NoUnaryObject
  literals : expr.AllLiterals Value.ReadsBack

theorem Rereadable.operand {operand : Expr} (h : e.Rereadable)
    (place : operand ∈ e.operands) :
    operand.Rereadable where
  accesses := h.accesses.operand place
  literals := h.literals.operand place

/-- The tokens of a shown expression are a phrase for the expression that is read back, and
one that may be accessed unless a unary operator stands in front. -/
theorem derives_tokens (h : e.Rereadable) :
    Derives .unary e.shownNesting e.tokens e.reread ∧
      (¬ e.IsUnary → Derives .access e.shownNesting e.tokens e.reread) := by
  induction e, h using inherited_induction with
  | inherit e h operand place => exact h.operand place
  | literal v h =>
    have derives := (h.literals v (self_mem_parts _)).derives 0
    exact ⟨derives.of_primary .unary, fun _ => derives.of_primary .access⟩
  | identifier name _ =>
    have derives :
        Derives .primary 0 [(ofName name).token] (.identifier (ofName name).token.text) :=
      .identifier rfl
    have text : (ofName name).token.text = name := String.ofList_toList
    rw [text] at derives
    exact ⟨derives.of_primary .unary, fun _ => derives.of_primary .access⟩
  | binary op l r _ _ _ ihl ihr =>
    have left := ihl.1
    have right := ihr.1
    have first : Derives op.category _ l.tokens l.reread :=
      (left.looser (by cases op <;> decide)).mono (Nat.le_max_left _ r.shownNesting)
    have second : Derives op.category.tighter _ r.tokens r.reread :=
      (right.looser (by cases op <;> decide)).mono (Nat.le_max_right l.shownNesting _)
    have member : (op.symbol, op) ∈ op.category.operators := by cases op <;> decide
    have symbol : (Lexeme.ofOperator op.symbol).token.isOperator op.symbol = true := by
      cases op <;> rfl
    have operation := (Derives.operation member symbol first second).loosest
    have closed : Derives .primary _ (openParen.token :: (_ ++ [closeParen.token])) _ :=
      .parens rfl rfl operation
    have whole : (binary op l r).tokens = openParen.token ::
        (l.tokens ++ (Lexeme.ofOperator op.symbol).token :: r.tokens ++
          [closeParen.token]) := by
      simp [tokens, lexemes]
    rw [whole]
    exact ⟨closed.of_primary .unary, fun _ => closed.of_primary .access⟩
  | unary op e _ _ ih =>
    have operand := ih.1
    refine ⟨?_, fun other => absurd trivial other⟩
    cases op with
    | not => exact .not rfl operand
    | neg => exact .neg rfl operand
  | member e property h _ ih =>
    have object := ih
    have access : Derives .access _ (e.tokens ++ [point.token, (ofName property).token]) _ :=
      .member rfl rfl (object.2 h.accesses.not_isUnary_of_member)
    have text : (ofName property).token.text = property := String.ofList_toList
    have whole : (member e property).tokens =
        e.tokens ++ [point.token, (ofName property).token] := by
      simp [tokens, lexemes]
    rw [text] at access
    rw [whole]
    exact ⟨access.looser (by decide), fun _ => access⟩
  | index e key h _ _ ihe ihkey =>
    have object := ihe
    have inner := ihkey.1
    have plain := h.accesses.not_isUnary_of_index
    obtain ⟨room, hroom⟩ : ∃ room, (index e key).shownNesting = room + 1 :=
      ⟨max e.shownNesting (key.shownNesting + 1) - 1, by rw [shownNesting]; omega⟩
    rw [hroom]
    rw [shownNesting] at hroom
    have access : Derives .access (room + 1)
        (e.tokens ++ openBracket.token :: (key.tokens ++ [closeBracket.token]))
        (.index e.reread key.reread) :=
      .index rfl rfl ((object.2 plain).mono (by omega))
        ((inner.looser (by decide)).mono (by omega))
    have whole : (index e key).tokens =
        e.tokens ++ openBracket.token :: (key.tokens ++ [closeBracket.token]) := by
      simp [tokens, lexemes]
    rw [whole]
    exact ⟨access.looser (by decide), fun _ => access⟩
  | conditional t c a _ _ _ _ iht ihc iha =>
    have test := iht.1
    have consequent := ihc.1
    have alternate := iha.1
    obtain ⟨room, hroom⟩ : ∃ room, (conditional t c a).shownNesting = room + 1 + 1 :=
      ⟨max t.shownNesting (max c.shownNesting a.shownNesting + 1) - 1,
        by rw [shownNesting]; omega⟩
    rw [hroom]
    rw [shownNesting] at hroom
    have choice : Derives .conditional (room + 1)
        (t.tokens ++ (Lexeme.ofOperator "?").token ::
          (c.tokens ++ between.token :: a.tokens))
        (.conditional t.reread c.reread a.reread) :=
      .choice rfl rfl ((test.looser (by decide)).mono (by omega))
        ((consequent.looser (by decide)).mono (by omega))
        ((alternate.looser (by decide)).mono (by omega))
    have closed : Derives .primary _ (openParen.token :: (_ ++ [closeParen.token])) _ :=
      .parens rfl rfl choice
    have whole : (conditional t c a).tokens = openParen.token ::
        (t.tokens ++ (Lexeme.ofOperator "?").token ::
        (c.tokens ++ between.token :: a.tokens) ++ [closeParen.token]) := by
      simp [tokens, lexemes]
    rw [whole]
    exact ⟨closed.of_primary .unary, fun _ => closed.of_primary .access⟩

end Expr

variable {limits : SourceLimits} {e : Expr}

/-- An expression without unary operations as objects is read back from what is shown of
it, if its names are identifiers, its literals read back, and what is shown keeps to the
limits. Of its numbers only the sign of a zero may be lost, and without such a zero the
expression itself is read. -/
theorem parseSource_display (accesses : e.NoUnaryObject)
    (names : ∀ name, (.identifier name ∈ e.parts ∨ ∃ object, .member object name ∈ e.parts) →
      IsIdentifier name)
    (literals : ∀ v, .literal v ∈ e.parts → v.ReadsBack)
    (admissible : Admissible limits e.display.toList)
    (few : ∀ spans, Lexed 0 e.display.toList spans → spans.length ≤ limits.maxTokens)
    (shallow : e.shownNesting ≤ maxNesting) :
    (∃ read, parseSource e.display limits = .ok read ∧ read.Same e) ∧
      ((∀ x, .literal (.number x) ∈ e.parts →
          readDouble? (Value.numberStyle.write x).toList = some x) →
        parseSource e.display limits = .ok e) := by
  have legible : e.Legible :=
    ⟨fun v place => (literals v place).cut_lexeme, fun name place => names name (.inl place),
      fun object name place => names name (.inr ⟨object, place⟩)⟩
  have spelled := e.spelled_display legible stops_nil spelled_nil
  rw [List.append_nil, List.append_nil] at spelled
  obtain ⟨spans, lexed, same⟩ := spelled.lexed 0
  have phrase : Derives .conditional maxNesting (spans.map Span.token) e.reread := by
    have derives := (Expr.derives_tokens ⟨accesses, literals⟩).1
    refine ((derives.looser (by decide)).mono shallow).of_contents ?_
    rw [List.map_map]
    exact same
  have parsed : parseSource e.display limits = .ok e.reread :=
    parseSource_eq_ok_iff.2 ⟨admissible, spans, lexed, few spans lexed, phrase⟩
  refine ⟨⟨e.reread, parsed, Expr.same_reread literals⟩, fun exact => ?_⟩
  have unchanged : e.AllLiterals fun v => v.reread = v := by
    intro v place
    cases v with
    | number x => rw [Value.reread, exact x place]; rfl
    | _ => rfl
  rwa [Expr.reread_eq_self unchanged] at parsed

-- The operator in front of the access and the escaped quote are both
-- read as they were shown.
theorem parseSource_display_choice :
    let e : Expr := .conditional (.unary .not (.member (.identifier "cart") "empty"))
      (.index (.identifier "rates") (.literal (.text "a\"b"))) (.literal (.number 2.5))
    e.display = "(!cart.empty ? rates[\"a\\\"b\"] : 2.5)" ∧
      parseSource "(!cart.empty ? rates[\"a\\\"b\"] : 2.5)" = .ok e := by
  intro e
  have shown : e.display = "(!cart.empty ? rates[\"a\\\"b\"] : 2.5)" := by decide +kernel
  have written : (Value.numberStyle.write 2.5).toList = "2.5".toList := by decide +kernel
  have read : readDouble? (Value.numberStyle.write 2.5).toList = some 2.5 := by
    rw [written]
    rfl
  have numeral : IsNumeral "2.5".toList :=
    ⟨['2'], ['.', '5'], [], ⟨by decide, by decide⟩, .some ⟨by decide, by decide⟩, .none, rfl⟩
  have scanned : tokenize e.display = .ok [⟨.leftParen, "(", 0⟩, ⟨.operator, "!", 1⟩,
      ⟨.identifier, "cart", 2⟩, ⟨.dot, ".", 6⟩, ⟨.identifier, "empty", 7⟩,
      ⟨.operator, "?", 13⟩,
      ⟨.identifier, "rates", 15⟩, ⟨.leftBracket, "[", 20⟩, ⟨.string, "a\"b", 21⟩,
      ⟨.rightBracket, "]", 27⟩, ⟨.colon, ":", 29⟩, ⟨.number, "2.5", 31⟩,
      ⟨.rightParen, ")", 34⟩, Token.endAt 35] := by
    rw [shown]
    rfl
  obtain ⟨admissible, spans, lexed, few, -⟩ := tokenize_eq_ok_iff.1 scanned
  have short : ∀ others, Lexed 0 e.display.toList others → others.length ≤ 1000 := by
    intro others lexed'
    rwa [← List.length_map Span.token, lexed'.unique lexed, List.length_map]
  have cart : IsIdentifier "cart" := (cut_of_lexeme? (by rfl) : Cut ('c' :: "art".toList) _)
  have empty : IsIdentifier "empty" :=
    (cut_of_lexeme? (by rfl) : Cut ('e' :: "mpty".toList) _)
  have rates : IsIdentifier "rates" :=
    (cut_of_lexeme? (by rfl) : Cut ('r' :: "ates".toList) _)
  have names :
      ∀ name, (.identifier name ∈ e.parts ∨ ∃ object, .member object name ∈ e.parts) →
      IsIdentifier name := by
    simp [e, Expr.parts, or_imp, forall_and, cart, empty, rates]
  have escapes : Quoted.KnownEscapes "a\"b".toList := by decide +kernel
  have literals : ∀ v, .literal v ∈ e.parts → v.ReadsBack := by
    have number : (Value.number 2.5).ReadsBack :=
      .number (written ▸ numeral) read (by decide +kernel)
    simp [e, Expr.parts, number, Value.ReadsBack.text escapes]
  have exact : ∀ x, .literal (.number x) ∈ e.parts →
      readDouble? (Value.numberStyle.write x).toList = some x := by
    simp [e, Expr.parts, read]
  have again :=
    (parseSource_display (e := e) ⟨by simp [e, Expr.parts], by simp [e, Expr.parts]⟩
    names literals admissible short (by decide)).2 exact
  exact ⟨shown, shown ▸ again⟩

end GuardedExpr
