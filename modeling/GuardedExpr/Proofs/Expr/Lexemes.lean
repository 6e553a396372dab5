import GuardedExpr.Expr.Display
import GuardedExpr.Proofs.Expr.Parts
import GuardedExpr.Proofs.Token.Quotation
import GuardedExpr.Proofs.Token.Rendering
import GuardedExpr.Proofs.Token.Spelling

/-!
# The lexemes of a shown expression

What is shown of an expression spells its lexemes, if each of its literals and names is one
lexeme by itself: nothing that the parts put next to each other makes a lexeme longer.
-/

namespace GuardedExpr

open Lexeme

namespace Lexeme

def ofOperator (symbol : String) : Lexeme :=
  verbatim .operator symbol.toList []

def ofName (name : String) : Lexeme :=
  verbatim .identifier name.toList []

def openParen : Lexeme :=
  verbatim .leftParen ['('] []

def closeParen : Lexeme :=
  verbatim .rightParen [')'] []

def openBracket : Lexeme :=
  verbatim .leftBracket ['['] []

def closeBracket : Lexeme :=
  verbatim .rightBracket [']'] []

def point : Lexeme :=
  verbatim .dot ['.'] []

def between : Lexeme :=
  verbatim .colon [':'] []

/-- The reader takes the whole text for one identifier. -/
def IsIdentifier (name : String) : Prop :=
  Cut name.toList (ofName name)

end Lexeme

/-- A literal as a lexeme. A value that no literal has is given as a word of its own. -/
def Value.lexeme : Value → Lexeme
  | .text s => ⟨.string, unescaped (Quoted.encode s.toList),
    '"' :: (Quoted.encode s.toList ++ ['"']), []⟩
  | .number x => verbatim .number (numberStyle.write x).toList []
  | .bool b => verbatim .boolean (Value.bool b).display.toList []
  | v => verbatim .null v.display.toList []

namespace Expr

def lexemes : Expr → List Lexeme
  | .literal v => [v.lexeme]
  | .identifier name => [ofName name]
  | .binary op l r =>
    openParen :: (l.lexemes ++ ofOperator op.symbol :: (r.lexemes ++ [closeParen]))
  | .unary op e => ofOperator op.symbol :: e.lexemes
  | .member e property => e.lexemes ++ [point, ofName property]
  | .index e key => e.lexemes ++ openBracket :: (key.lexemes ++ [closeBracket])
  | .conditional t c a =>
    openParen :: (t.lexemes ++ ofOperator "?" ::
      (c.lexemes ++ between :: (a.lexemes ++ [closeParen])))

theorem mem_parts_of_operand {expr operand part : Expr} (place : operand ∈ expr.operands)
    (inside : part ∈ operand.parts) : part ∈ expr.parts :=
  mem_parts_trans (mem_parts_of_mem_operands place) inside

/-- Every literal and every name in the expression is shown as one lexeme. -/
structure Legible (expr : Expr) : Prop where
  literals : ∀ v, .literal v ∈ expr.parts → Cut v.lexeme.source v.lexeme
  identifiers : ∀ name, .identifier name ∈ expr.parts → IsIdentifier name
  properties : ∀ object name, .member object name ∈ expr.parts → IsIdentifier name

theorem Legible.operand {expr operand : Expr} (h : expr.Legible)
    (place : operand ∈ expr.operands) :
    operand.Legible where
  literals v inside := h.literals v (mem_parts_of_operand place inside)
  identifiers name inside := h.identifiers name (mem_parts_of_operand place inside)
  properties object name inside :=
    h.properties object name (mem_parts_of_operand place inside)

/-- Something holds of every literal in the expression. -/
def AllLiterals (P : Value → Prop) (expr : Expr) : Prop :=
  ∀ v, .literal v ∈ expr.parts → P v

theorem AllLiterals.operand {P : Value → Prop} {expr operand : Expr} (h : expr.AllLiterals P)
    (place : operand ∈ expr.operands) : operand.AllLiterals P :=
  fun v inside => h v (mem_parts_of_operand place inside)

end Expr

/-! ## Literals and names -/

variable {v : Value} {name : String} {e : Expr} {more : List Char} {lexemes : List Lexeme}

namespace Value

theorem toList_asLiteral (v : Value) : v.asLiteral.toList = v.lexeme.source := by
  cases v with
  | text s =>
    rw [asLiteral, quoted, String.toList_ofList]
    rfl
  | _ => rfl

theorem rest_lexeme (v : Value) : v.lexeme.rest = [] := by
  cases v <;> rfl

theorem kind_lexeme_ne_operator (v : Value) : v.lexeme.kind ≠ .operator := by
  cases v <;> exact TokenKind.noConfusion

/-- Null, truth values, texts, and numbers that are written as a numeral
are shown as one lexeme. -/
theorem cut_lexeme (plain : v = .null ∨ v.isScalar = true)
    (numeral : ∀ x, v = .number x → IsNumeral (numberStyle.write x).toList) :
    Cut v.lexeme.source v.lexeme := by
  cases v with
  | null => exact cut_of_keyword (by decide)
  | bool b => cases b <;> exact cut_of_keyword (by decide)
  | number x =>
    have cut := Cut.numeral (.of_belongs (numeral x rfl))
    rwa [List.append_nil] at cut
  | text s =>
    have cut : Cut _ ⟨_, _, _, []⟩ := .string (.inl rfl) (Quoted.enclosed_encode s.toList)
    rwa [List.append_nil] at cut
  | _ => exact absurd plain (by simp [isScalar])

end Value

namespace Lexeme

theorem IsIdentifier.isWord (h : IsIdentifier name) : IsWord name.toList :=
  (Cut.isWord h rfl).1

theorem isIdentifier_of_cut {front : List Char} {lexeme : Lexeme} (h : Cut front lexeme)
    (kind : lexeme.kind = .identifier) : IsIdentifier (String.ofList lexeme.text) := by
  obtain ⟨word, usable, same⟩ := h.isWord kind
  have cut := Cut.word (.of_belongs word) usable
  rw [IsIdentifier, ofName, String.toList_ofList]
  rwa [same, List.append_nil] at cut

/-- No lexeme but an operator starts with an equals sign. -/
theorem Cut.head?_ne_equals {front : List Char} {lexeme : Lexeme} (h : Cut front lexeme)
    (kind : lexeme.kind ≠ .operator) : ∃ c ∈ front.head?, c ≠ '=' := by
  cases h with
  | numeral h =>
    obtain ⟨whole, part, power, hwhole, -, -, rfl⟩ := h.belongs
    obtain ⟨c, run, rfl⟩ := List.exists_cons_of_ne_nil hwhole.1
    refine ⟨c, rfl, ?_⟩
    rintro rfl
    exact absurd (hwhole.2 _ List.mem_cons_self) (by decide)
  | word h =>
    obtain ⟨c, parts, rfl, start, -⟩ := h.belongs
    refine ⟨c, rfl, ?_⟩
    rintro rfl
    exact absurd start (by decide)
  | operator => exact absurd rfl kind
  | mark h =>
    exact ⟨_, rfl, (by decide : ∀ c ∈ ['.', '(', ')', '[', ']', ':'], c ≠ '=') _
      (mem_of_punctuation? h)⟩
  | string hquote =>
    refine ⟨_, rfl, ?_⟩
    rcases hquote with rfl | rfl <;> decide

theorem cut_operator {symbol : String} (h : IsOperator symbol.toList) :
    Cut symbol.toList (ofOperator symbol) := by
  have cut := Cut.operator (.of_belongs h)
  rwa [List.append_nil] at cut

theorem cut_binary (op : BinaryOp) : Cut op.symbol.toList (ofOperator op.symbol) := by
  refine cut_operator ?_
  cases op <;> first | exact .inl (by decide) | exact .inr ⟨_, by decide, rfl⟩

theorem cut_question : Cut "?".toList (ofOperator "?") :=
  cut_operator (.inr ⟨'?', by decide, rfl⟩)

/-- In front of anything but an equals sign a unary operator is an operator by itself. -/
theorem cut_unary (op : UnaryOp) (h : '=' ∉ more.head?) :
    Cut (op.symbol.toList ++ more) (verbatim .operator op.symbol.toList more) := by
  refine .operator ⟨.inr ?_, List.prefix_append _ _, ?_⟩
  · cases op with
    | not => exact ⟨'!', by decide, rfl⟩
    | neg => exact ⟨'-', by decide, rfl⟩
  · have equals : ∀ symbol ∈ longOperators, symbol.head? = op.symbol.toList.head? →
        (symbol.drop 1).head? = some '=' := by
      cases op <;> decide
    have single : op.symbol.toList.length = 1 := by cases op <;> rfl
    rintro other (long | ⟨c, -, rfl⟩) starts
    · obtain ⟨c, symbol⟩ := List.length_eq_one_iff.1 single
      rw [symbol] at starts equals
      cases other with
      | nil => exact absurd (length_of_mem_longOperators [] long) (by decide)
      | cons d other =>
        obtain ⟨rfl, behind⟩ := List.cons_prefix_cons.1 starts
        have second : other.head? = some '=' := equals _ long rfl
        refine absurd ?_ h
        obtain ⟨tail, rfl⟩ := behind
        rw [List.head?_append, second]
        rfl
    · exact Nat.le_of_eq single.symm

end Lexeme

/-! ## Whole expressions -/

namespace Expr

theorem head?_display (h : e.Legible) : ∃ c ∈ e.display.toList.head?, c ≠ '=' := by
  induction e, h using inherited_induction with
  | inherit e h operand place => exact h.operand place
  | literal v h =>
    rw [display, Value.toList_asLiteral]
    exact (h.literals v (self_mem_parts _)).head?_ne_equals v.kind_lexeme_ne_operator
  | identifier name h =>
    exact (h.identifiers name (self_mem_parts _)).head?_ne_equals TokenKind.noConfusion
  | binary op l r _ _ _ _ _ =>
    refine ⟨'(', ?_, by decide⟩
    simp [display]
  | unary op e _ _ ih =>
    cases op with
    | not => exact ⟨'!', by simp [display, UnaryOp.symbol], by decide⟩
    | neg => exact ⟨'-', by simp [display, UnaryOp.symbol], by decide⟩
  | member object name _ _ ih =>
    obtain ⟨c, first, other⟩ := ih
    refine ⟨c, ?_, other⟩
    simp [display, List.head?_append, Option.mem_def.1 first]
  | index object key _ _ _ ih =>
    obtain ⟨c, first, other⟩ := ih
    refine ⟨c, ?_, other⟩
    simp [display, List.head?_append, Option.mem_def.1 first]
  | conditional t c a _ _ _ _ =>
    refine ⟨'(', ?_, by decide⟩
    simp [display]

/-- What is shown of an expression spells its lexemes, in front of whatever stops them. -/
theorem spelled_display (h : e.Legible) (stops : Stops more)
    (behind : Spelled more lexemes) :
    Spelled (e.display.toList ++ more) (e.lexemes ++ lexemes) := by
  induction e, h using inherited_induction generalizing more lexemes with
  | inherit e h operand place => exact h.operand place
  | literal v h =>
    rw [display, Value.toList_asLiteral]
    exact .cons_of_stops (h.literals v (self_mem_parts _)) v.rest_lexeme stops behind
  | identifier name h =>
    exact .cons_of_stops (h.identifiers name (self_mem_parts _)) rfl stops behind
  | binary op l r _ _ _ ihl ihr =>
    have text : (binary op l r).display.toList ++ more =
        '(' :: (l.display.toList ++
          ' ' :: (op.symbol.toList ++ ' ' :: (r.display.toList ++ ')' :: more))) := by
      simp [display]
    have closed : Spelled (')' :: more) (closeParen :: lexemes) := .mark rfl behind
    have right := ihr (stops_cons (by decide) more) closed
    have operator := Spelled.cons_of_stops (cut_binary op) rfl (stops_space _) right.space
    have left := ihl (stops_space _) operator.space
    have opened : Spelled _ (openParen :: _) := left.mark rfl
    rw [text]
    simpa [Expr.lexemes] using opened
  | unary op e _ he ih =>
    have operand := ih stops behind
    obtain ⟨c, first, other⟩ := head?_display he
    have apart : '=' ∉ (e.display.toList ++ more).head? := by
      rw [List.head?_append, Option.mem_def.1 first]
      rintro ⟨⟩
      exact other rfl
    have spelled : Spelled _ (ofOperator op.symbol :: _) :=
      .cons (ofOperator op.symbol) (cut_unary op apart) operand
    simpa [display, Expr.lexemes] using spelled
  | member object name h _ ih =>
    have text : (member object name).display.toList ++ more =
        object.display.toList ++ '.' :: (name.toList ++ more) := by
      simp [display]
    have identifier := h.properties object name (self_mem_parts _)
    have property := Spelled.cons_of_stops identifier rfl stops behind
    have access : Spelled _ (point :: _) := property.mark rfl
    have whole := ih (stops_point identifier.isWord more) access
    rw [text]
    simpa [Expr.lexemes] using whole
  | index object key _ _ _ iho ihk =>
    have text : (index object key).display.toList ++ more =
        object.display.toList ++ '[' :: (key.display.toList ++ ']' :: more) := by
      simp [display]
    have closed : Spelled (']' :: more) (closeBracket :: lexemes) := .mark rfl behind
    have inner := ihk (stops_cons (by decide) more) closed
    have opened : Spelled _ (openBracket :: _) := inner.mark rfl
    have whole := iho (stops_cons (by decide) _) opened
    rw [text]
    simpa [Expr.lexemes] using whole
  | conditional t c a _ _ _ _ iht ihc iha =>
    have text : (conditional t c a).display.toList ++ more =
        '(' :: (t.display.toList ++ ' ' ::
          ("?".toList ++ ' ' :: (c.display.toList ++ ' ' :: ':' :: ' ' ::
          (a.display.toList ++ ')' :: more)))) := by
      simp [display]
    have closed : Spelled (')' :: more) (closeParen :: lexemes) := .mark rfl behind
    have alternate := iha (stops_cons (by decide) more) closed
    have colon : Spelled _ (between :: _) := alternate.space.mark rfl
    have consequent := ihc (stops_space _) colon.space
    have question := Spelled.cons_of_stops cut_question rfl (stops_space _) consequent.space
    have test := iht (stops_space _) question.space
    have opened : Spelled _ (openParen :: _) := test.mark rfl
    rw [text]
    simpa [Expr.lexemes] using opened

end Expr

end GuardedExpr
