import GuardedExpr.Expr.Parse

/-!
# The grammar of expressions

`Derives category room us e` says that the tokens `us` are a phrase of a syntactic
category, and that `e` is the expression they stand for. Binary operators associate to
the left, so the left operand is of the same category as the whole and the right operand
of the next tighter one; the branches of a choice are conditionals, so a choice
associates to the right.

`room` bounds the nesting: every pair of parentheses, every index bracket and
every branch of a choice takes one from what is inside it. The test of a choice
and unary operators take none.

Nothing here refers to the parser. The symbols of the operators are written out once more, so
that the grammar can be read on its own.
-/

namespace GuardedExpr

/-- The syntactic categories, from the loosest to the tightest. -/
inductive Category where
  | conditional
  | logicalOr
  | logicalAnd
  | equality
  | relational
  | additive
  | multiplicative
  | unary
  | access
  | primary
deriving DecidableEq, Repr

namespace Category

/-- The category that binds next tighter. -/
def tighter : Category → Category
  | .conditional => .logicalOr
  | .logicalOr => .logicalAnd
  | .logicalAnd => .equality
  | .equality => .relational
  | .relational => .additive
  | .additive => .multiplicative
  | .multiplicative => .unary
  | .unary => .access
  | .access => .primary
  | .primary => .primary

/-- How loosely a category binds. -/
def looseness : Category → Nat
  | .conditional => 9
  | .logicalOr => 8
  | .logicalAnd => 7
  | .equality => 6
  | .relational => 5
  | .additive => 4
  | .multiplicative => 3
  | .unary => 2
  | .access => 1
  | .primary => 0

/-- The binary operators of a category, with the operations that they stand for. -/
def operators : Category → List (String × BinaryOp)
  | .logicalOr => [("||", .or)]
  | .logicalAnd => [("&&", .and)]
  | .equality => [("==", .eq), ("!=", .ne), ("===", .strictEq), ("!==", .strictNe)]
  | .relational => [("<", .lt), ("<=", .le), (">", .gt), (">=", .ge)]
  | .additive => [("+", .add), ("-", .sub)]
  | .multiplicative => [("*", .mul), ("/", .div), ("%", .rem)]
  | _ => []

/-- The operations of a category. -/
def level (category : Category) : List BinaryOp :=
  category.operators.map Prod.snd

/-- What holds of primaries, and of a category whenever it holds of the next tighter one,
holds of all categories. -/
@[elab_as_elim]
theorem tighter_induction {motive : Category → Prop} (primary : motive .primary)
    (loosen : ∀ category, category ≠ .primary → motive category.tighter → motive category)
    (category : Category) : motive category := by
  have haccess := loosen .access (by simp) primary
  have hunary := loosen .unary (by simp) haccess
  have hmultiplicative := loosen .multiplicative (by simp) hunary
  have hadditive := loosen .additive (by simp) hmultiplicative
  have hrelational := loosen .relational (by simp) hadditive
  have hequality := loosen .equality (by simp) hrelational
  have hand := loosen .logicalAnd (by simp) hequality
  have hor := loosen .logicalOr (by simp) hand
  have hconditional := loosen .conditional (by simp) hor
  cases category <;> assumption

theorem looseness_tighter_lt {category : Category} (h : category ≠ .primary) :
    category.tighter.looseness < category.looseness := by
  revert h
  cases category <;> decide

theorem eq_or_looseness_le_tighter {category tight : Category}
    (h : tight.looseness ≤ category.looseness) :
    tight = category ∨ tight.looseness ≤ category.tighter.looseness := by
  revert h
  cases category <;> cases tight <;> decide

/-- The symbols of the grammar are those of the operations. -/
theorem symbol_of_mem_operators {category : Category} {symbol : String} {op : BinaryOp}
    (h : (symbol, op) ∈ category.operators) : symbol = op.symbol := by
  have hall : ∀ pair ∈ category.operators, pair.1 = pair.2.symbol := by
    cases category <;> decide
  exact hall _ h

theorem mem_level_iff {category : Category} {op : BinaryOp} :
    op ∈ category.level ↔ (op.symbol, op) ∈ category.operators := by
  constructor
  · intro h
    obtain ⟨⟨symbol, _⟩, hmem, rfl⟩ := List.mem_map.1 h
    rwa [← symbol_of_mem_operators hmem]
  · intro h
    exact List.mem_map.2 ⟨_, h, rfl⟩

end Category

/-- The tokens `us` are a phrase of `category` that stands for `e`,
nested at most `room` deep. -/
inductive Derives : Category → Nat → List Token → Expr → Prop where
  /-- A phrase of the next tighter category, with no operator of this one. -/
  | tighter {category : Category} {room : Nat} {us : List Token} {e : Expr} :
      category ≠ .primary → Derives category.tighter room us e → Derives category room us e
  | choice {room : Nat} {us vs ws : List Token} {question colon : Token} {t c a : Expr} :
      question.isOperator "?" = true → colon.kind = .colon →
      Derives .logicalOr (room + 1) us t → Derives .conditional room vs c →
      Derives .conditional room ws a →
      Derives .conditional (room + 1) (us ++ question :: (vs ++ colon :: ws))
        (.conditional t c a)
  | operation {category : Category} {room : Nat} {us vs : List Token} {symbol : String}
      {op : BinaryOp} {token : Token} {l r : Expr} :
      (symbol, op) ∈ category.operators → token.isOperator symbol = true →
      Derives category room us l → Derives category.tighter room vs r →
      Derives category room (us ++ token :: vs) (.binary op l r)
  | not {room : Nat} {us : List Token} {token : Token} {e : Expr} :
      token.isOperator "!" = true → Derives .unary room us e →
      Derives .unary room (token :: us) (.unary .not e)
  | neg {room : Nat} {us : List Token} {token : Token} {e : Expr} :
      token.isOperator "-" = true → Derives .unary room us e →
      Derives .unary room (token :: us) (.unary .neg e)
  | member {room : Nat} {us : List Token} {dot name : Token} {e : Expr} :
      dot.kind = .dot → name.kind = .identifier → Derives .access room us e →
      Derives .access room (us ++ [dot, name]) (.member e name.text)
  | index {room : Nat} {us vs : List Token} {left right : Token} {e key : Expr} :
      left.kind = .leftBracket → right.kind = .rightBracket →
      Derives .access (room + 1) us e → Derives .conditional room vs key →
      Derives .access (room + 1) (us ++ left :: (vs ++ [right])) (.index e key)
  | number {room : Nat} {token : Token} {x : Float} :
      token.kind = .number → readDouble? token.text.toList = some x →
      Derives .primary room [token] (.literal (.number x))
  | string {room : Nat} {token : Token} :
      token.kind = .string → Derives .primary room [token] (.literal (.text token.text))
  | boolean {room : Nat} {token : Token} :
      token.kind = .boolean →
      Derives .primary room [token] (.literal (.bool (token.text == "true")))
  | null {room : Nat} {token : Token} :
      token.kind = .null → Derives .primary room [token] (.literal .null)
  | identifier {room : Nat} {token : Token} :
      token.kind = .identifier → Derives .primary room [token] (.identifier token.text)
  | parens {room : Nat} {us : List Token} {left right : Token} {e : Expr} :
      left.kind = .leftParen → right.kind = .rightParen → Derives .conditional room us e →
      Derives .primary (room + 1) (left :: (us ++ [right])) e

/-- No phrase is empty. -/
theorem Derives.ne_nil {category : Category} {room : Nat} {us : List Token} {e : Expr}
    (h : Derives category room us e) : us ≠ [] := by
  induction h with
  | tighter _ _ ih => exact ih
  | _ => simp

theorem Token.kind_of_isOperator {token : Token} {symbol : String}
    (h : token.isOperator symbol = true) : token.kind = .operator := by
  rw [Token.isOperator, Bool.and_eq_true, beq_iff_eq] at h
  exact h.1

theorem Token.kind_ne_endOfInput_of_isOperator {token : Token} {symbol : String}
    (h : token.isOperator symbol = true) : token.kind ≠ .endOfInput := by
  simp [Token.kind_of_isOperator h]

/-- An end marker is no part of a phrase. -/
theorem Derives.kind_ne_endOfInput {category : Category} {room : Nat} {us : List Token}
    {e : Expr} (h : Derives category room us e) :
    ∀ token ∈ us, token.kind ≠ .endOfInput := by
  induction h with
  | tighter _ _ ih => exact ih
  | choice hquestion hcolon _ _ _ iht ihc iha =>
    simp only [List.forall_mem_append, List.forall_mem_cons]
    exact ⟨iht, Token.kind_ne_endOfInput_of_isOperator hquestion, ihc, by simp [hcolon], iha⟩
  | operation _ htoken _ _ ihl ihr =>
    simp only [List.forall_mem_append, List.forall_mem_cons]
    exact ⟨ihl, Token.kind_ne_endOfInput_of_isOperator htoken, ihr⟩
  | not htoken _ ih | neg htoken _ ih =>
    exact List.forall_mem_cons.2 ⟨Token.kind_ne_endOfInput_of_isOperator htoken, ih⟩
  | member hdot hname _ ih => exact List.forall_mem_append.2 ⟨ih, by simp [hdot, hname]⟩
  | index hleft hright _ _ ihe ihkey =>
    simp only [List.forall_mem_append, List.forall_mem_cons]
    exact ⟨ihe, by simp [hleft], ihkey, by simp [hright], nofun⟩
  | parens hleft hright _ ih =>
    simp only [List.forall_mem_append, List.forall_mem_cons]
    exact ⟨by simp [hleft], ih, by simp [hright], nofun⟩
  | number kind | string kind | boolean kind | null kind | identifier kind => simp [kind]

end GuardedExpr
