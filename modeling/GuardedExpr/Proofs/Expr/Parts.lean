import GuardedExpr.Expr.Basic
import GuardedExpr.Value.Comparison

/-!
# The parts of an expression

An expression is made of its operands, and has them and their parts as its parts. What
holds of an expression as soon as it holds of its operands holds of every expression.
-/

namespace GuardedExpr.Expr

/-- The expressions that an expression is directly made of. -/
def operands : Expr → List Expr
  | .literal _ => []
  | .identifier _ => []
  | .binary _ left right => [left, right]
  | .unary _ operand => [operand]
  | .member object _ => [object]
  | .index object key => [object, key]
  | .conditional test consequent alternate => [test, consequent, alternate]

/-- The expression and all expressions inside it. -/
def parts : Expr → List Expr
  | .literal value => [.literal value]
  | .identifier name => [.identifier name]
  | .binary op left right => .binary op left right :: (left.parts ++ right.parts)
  | .unary op operand => .unary op operand :: operand.parts
  | .member object property => .member object property :: object.parts
  | .index object key => .index object key :: (object.parts ++ key.parts)
  | .conditional test consequent alternate =>
    .conditional test consequent alternate ::
      (test.parts ++ (consequent.parts ++ alternate.parts))

theorem operands_induction {motive : Expr → Prop}
    (step : ∀ expr : Expr, (∀ operand ∈ expr.operands, motive operand) → motive expr)
    (expr : Expr) : motive expr := by
  induction expr <;> exact step _ (by simp_all [operands])

/-- An induction over an expression with a property that operands inherit. -/
@[elab_as_elim]
theorem inherited_induction {P : Expr → Prop} {motive : (expr : Expr) → P expr → Prop}
    (inherit : ∀ expr, P expr → ∀ operand ∈ expr.operands, P operand)
    (literal : ∀ v h, motive (.literal v) h)
    (identifier : ∀ name h, motive (.identifier name) h)
    (binary : ∀ op l r h hl hr, motive l hl → motive r hr → motive (.binary op l r) h)
    (unary : ∀ op e h he, motive e he → motive (.unary op e) h)
    (member : ∀ e property h he, motive e he → motive (.member e property) h)
    (index : ∀ e key h he hkey, motive e he → motive key hkey → motive (.index e key) h)
    (conditional : ∀ t c a h ht hc ha, motive t ht → motive c hc → motive a ha →
      motive (.conditional t c a) h) (expr : Expr) (h : P expr) : motive expr h := by
  induction expr with
  | literal v => exact literal v h
  | identifier name => exact identifier name h
  | binary op l r ihl ihr =>
    have hl := inherit _ h l (by simp [operands])
    have hr := inherit _ h r (by simp [operands])
    exact binary op l r h hl hr (ihl hl) (ihr hr)
  | unary op e ih =>
    have he := inherit _ h e (by simp [operands])
    exact unary op e h he (ih he)
  | member e property ih =>
    have he := inherit _ h e (by simp [operands])
    exact member e property h he (ih he)
  | index e key ihe ihkey =>
    have he := inherit _ h e (by simp [operands])
    have hkey := inherit _ h key (by simp [operands])
    exact index e key h he hkey (ihe he) (ihkey hkey)
  | conditional t c a iht ihc iha =>
    have ht := inherit _ h t (by simp [operands])
    have hc := inherit _ h c (by simp [operands])
    have ha := inherit _ h a (by simp [operands])
    exact conditional t c a h ht hc ha (iht ht) (ihc hc) (iha ha)

theorem parts_eq (expr : Expr) : expr.parts = expr :: expr.operands.flatMap parts := by
  cases expr <;> simp [parts, operands]

theorem mem_parts_iff {expr part : Expr} :
    part ∈ expr.parts ↔ part = expr ∨ ∃ operand ∈ expr.operands, part ∈ operand.parts := by
  rw [parts_eq, List.mem_cons, List.mem_flatMap]

theorem self_mem_parts (expr : Expr) : expr ∈ expr.parts :=
  mem_parts_iff.2 (.inl rfl)

theorem mem_parts_of_mem_operands {expr operand : Expr} (h : operand ∈ expr.operands) :
    operand ∈ expr.parts :=
  mem_parts_iff.2 (.inr ⟨operand, h, operand.self_mem_parts⟩)

theorem mem_parts_trans {expr part inner : Expr} (h : part ∈ expr.parts)
    (inside : inner ∈ part.parts) : inner ∈ expr.parts := by
  induction expr using operands_induction with
  | step expr ih =>
    rcases mem_parts_iff.1 h with rfl | ⟨operand, place, deeper⟩
    · exact inside
    · exact mem_parts_iff.2 (.inr ⟨operand, place, ih operand place deeper⟩)

/-- Every literal in the expression is null, a truth value, a number or a text. -/
def PlainLiterals (expr : Expr) : Prop :=
  ∀ value, .literal value ∈ expr.parts → value = .null ∨ value.isScalar = true

theorem PlainLiterals.of_mem {expr part : Expr} (h : expr.PlainLiterals)
    (place : part ∈ expr.parts) : part.PlainLiterals :=
  fun value literal => h value (mem_parts_trans place literal)

theorem PlainLiterals.operand {expr operand : Expr} (h : expr.PlainLiterals)
    (place : operand ∈ expr.operands) : operand.PlainLiterals :=
  h.of_mem (mem_parts_of_mem_operands place)

end GuardedExpr.Expr
