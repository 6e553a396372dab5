import GuardedExpr.Proofs.Expr.Lexemes

/-!
# What the lexemes of a shown expression say

Unary operators are shown without parentheses. So an access to a unary operation is
shown like the operation on an access, and nothing else is lost: a stack machine that
runs over the lexemes ends with the expression with all unary operators moved out of the
objects of its accesses.
-/

namespace GuardedExpr

open Lexeme

namespace Expr

/-- The function applied under the unary operators in front. -/
def onOperand (f : Expr → Expr) : Expr → Expr
  | .unary op e => .unary op (e.onOperand f)
  | e => f e

/-- The expression with all unary operators moved out of the objects of its accesses. -/
def hoisted : Expr → Expr
  | .literal v => .literal v
  | .identifier name => .identifier name
  | .binary op l r => .binary op l.hoisted r.hoisted
  | .unary op e => .unary op e.hoisted
  | .member e property => e.hoisted.onOperand (.member · property)
  | .index e key => e.hoisted.onOperand (.index · key.hoisted)
  | .conditional t c a => .conditional t.hoisted c.hoisted a.hoisted

/-- No unary operation is the object of an access. -/
structure NoUnaryObject (expr : Expr) : Prop where
  member : ∀ op operand property, .member (.unary op operand) property ∉ expr.parts
  index : ∀ op operand key, .index (.unary op operand) key ∉ expr.parts

theorem NoUnaryObject.operand {expr inner : Expr} (h : expr.NoUnaryObject)
    (place : inner ∈ expr.operands) : inner.NoUnaryObject where
  member op operand property inside :=
    h.member op operand property (mem_parts_of_operand place inside)
  index op operand key inside := h.index op operand key (mem_parts_of_operand place inside)

def IsUnary : Expr → Prop
  | .unary _ _ => True
  | _ => False

variable {e : Expr} {f : Expr → Expr}

theorem onOperand_of_not_isUnary (h : ¬ e.IsUnary) : e.onOperand f = f e := by
  cases e with
  | unary op e => exact absurd trivial h
  | _ => rfl

theorem NoUnaryObject.not_isUnary_of_member {property : String}
    (h : (Expr.member e property).NoUnaryObject) :
    ¬ e.IsUnary := by
  intro isUnary
  cases e with
  | unary op operand => exact h.member op operand property (self_mem_parts _)
  | _ => exact isUnary

theorem NoUnaryObject.not_isUnary_of_index {key : Expr}
    (h : (Expr.index e key).NoUnaryObject) :
    ¬ e.IsUnary := by
  intro isUnary
  cases e with
  | unary op operand => exact h.index op operand key (self_mem_parts _)
  | _ => exact isUnary

theorem hoisted_eq_self (h : e.NoUnaryObject) : e.hoisted = e := by
  induction e, h using inherited_induction with
  | inherit e h operand place => exact h.operand place
  | literal v _ => rfl
  | identifier name _ => rfl
  | binary op l r _ _ _ ihl ihr => rw [hoisted, ihl, ihr]
  | unary op e _ _ ih => rw [hoisted, ih]
  | member e property h _ ih =>
    rw [hoisted, ih, onOperand_of_not_isUnary h.not_isUnary_of_member]
  | index e key h _ _ ihe ihkey =>
    rw [hoisted, ihe, ihkey, onOperand_of_not_isUnary h.not_isUnary_of_index]
  | conditional t c a _ _ _ _ iht ihc iha => rw [hoisted, iht, ihc, iha]

theorem display_onOperand {behind : String} (h : ∀ e, (f e).display = e.display ++ behind)
    (e : Expr) :
    (e.onOperand f).display = e.display ++ behind := by
  induction e with
  | unary op e ih => rw [onOperand, display, ih, display, String.append_assoc]
  | _ => exact h _

/-- Moving the operators out changes nothing that is shown. -/
theorem display_hoisted (e : Expr) : e.hoisted.display = e.display := by
  induction e with
  | literal v => rfl
  | identifier name => rfl
  | binary op l r ihl ihr => rw [hoisted, display, ihl, ihr, display]
  | unary op e ih => rw [hoisted, display, ih, display]
  | member e property ih =>
    have shown : ∀ e, (member e property).display = e.display ++ ("." ++ property) :=
      fun e => by
      rw [display, String.append_assoc]
    rw [hoisted, display_onOperand shown, ih, shown]
  | index e key ihe ihkey =>
    have shown : ∀ e, (index e key.hoisted).display =
        e.display ++ ("[" ++ key.display ++ "]") := fun e => by
      rw [display, ihkey, String.append_assoc, String.append_assoc, String.append_assoc]
    rw [hoisted, display_onOperand shown, ihe, display, String.append_assoc,
      String.append_assoc, String.append_assoc]
  | conditional t c a iht ihc iha => rw [hoisted, display, iht, ihc, iha, display]

end Expr

/-! ## The stack machine -/

/-- What stands on the stack: an expression that is complete but for accesses behind it, or
a lexeme that waits for what comes behind it. -/
inductive Pending where
  | value (e : Expr)
  | unary (op : UnaryOp)
  | binary (op : BinaryOp)
  | question
  | colon
  | openParen
  | openBracket
  | point

namespace Pending

/-- Puts an expression on a stack, with the unary operators that wait for it applied. -/
def settle (e : Expr) : List Pending → List Pending
  | .unary op :: stack => settle (.unary op e) stack
  | stack => .value e :: stack

/-- Ends the expression on top: nothing that comes accesses it. -/
def complete : List Pending → List Pending
  | .value e :: stack => settle e stack
  | stack => stack

/-- Applies a function to the expression on top. -/
def onTop (f : Expr → Expr) : List Pending → List Pending
  | .value e :: stack => .value (f e) :: stack
  | stack => stack

def closeParen : List Pending → List Pending
  | .value r :: .binary op :: .value l :: .openParen :: stack =>
    .value (.binary op l r) :: stack
  | .value a :: .colon :: .value c :: .question :: .value t :: .openParen :: stack =>
    .value (.conditional t c a) :: stack
  | stack => stack

def closeBracket : List Pending → List Pending
  | .value key :: .openBracket :: stack => onTop (.index · key) stack
  | stack => stack

/-- An operator stands behind an expression, or in front of one. -/
def operator (symbol : String) : List Pending → List Pending
  | .value e :: stack =>
    match BinaryOp.ofSymbol? symbol with
    | some op => .binary op :: settle e stack
    | none => .question :: settle e stack
  | stack => .unary (if symbol = "!" then .not else .neg) :: stack

def word (name : String) : List Pending → List Pending
  | .point :: stack => onTop (.member · name) stack
  | stack => .value (.identifier name) :: stack

/-- One step of the machine, which knows what literal a lexeme is. -/
def step (meaning : Lexeme → Value) (stack : List Pending) (lexeme : Lexeme) :
    List Pending :=
  match lexeme.kind with
  | .identifier => word (String.ofList lexeme.text) stack
  | .operator => operator (String.ofList lexeme.text) stack
  | .dot => .point :: stack
  | .leftParen => .openParen :: stack
  | .rightParen => closeParen (complete stack)
  | .leftBracket => .openBracket :: stack
  | .rightBracket => closeBracket (complete stack)
  | .colon => .colon :: complete stack
  | _ => .value (.literal (meaning lexeme)) :: stack

/-- Puts an expression on a stack, the unary operators in front of it apart. -/
def load : Expr → List Pending → List Pending
  | .unary op e, stack => load e (.unary op :: stack)
  | e, stack => .value e :: stack

/-- An expression may start here: the stack does not end in one, nor in a point. -/
def Ready : List Pending → Prop
  | .value _ :: _ => False
  | .point :: _ => False
  | _ => True

variable {meaning : Lexeme → Value} {stack : List Pending} {f : Expr → Expr}

theorem load_eq (e : Expr) (stack : List Pending) :
    ∃ core below, load e stack = .value core :: below := by
  induction e generalizing stack with
  | unary op e ih => exact ih _
  | _ => exact ⟨_, _, rfl⟩

theorem complete_load (e : Expr) (stack : List Pending) :
    complete (load e stack) = settle e stack := by
  induction e generalizing stack with
  | unary op e ih => exact ih _
  | _ => rfl

theorem onTop_load (h : ∀ e, ¬ (f e).IsUnary) (e : Expr) (stack : List Pending) :
    onTop f (load e stack) = load (e.onOperand f) stack := by
  have whole : ∀ e stack, load (f e) stack = .value (f e) :: stack := by
    intro e stack
    have other := h e
    cases applied : f e with
    | unary op e =>
      rw [applied] at other
      exact absurd trivial other
    | _ => rfl
  induction e generalizing stack with
  | unary op e ih => exact ih _
  | _ => exact (whole _ _).symm

theorem word_of_ready (ready : Ready stack) (name : String) :
    word name stack = .value (.identifier name) :: stack := by
  rcases stack with _ | ⟨_ | _, stack⟩ <;> first | rfl | exact absurd ready id

theorem operator_of_ready (ready : Ready stack) (op : UnaryOp) :
    operator op.symbol stack = .unary op :: stack := by
  have which : (if op.symbol = "!" then UnaryOp.not else .neg) = op := by cases op <;> rfl
  rcases stack with _ | ⟨_ | _, stack⟩ <;>
    first | exact absurd ready id | exact congrArg (fun op => Pending.unary op :: _) which

theorem operator_load (symbol : String) (e : Expr) (stack : List Pending) :
    operator symbol (load e stack) =
      (match BinaryOp.ofSymbol? symbol with
        | some op => .binary op
        | none => .question) :: settle e stack := by
  obtain ⟨core, below, loaded⟩ := load_eq e stack
  have completed := complete_load e stack
  rw [loaded] at completed ⊢
  rw [← completed, operator]
  cases BinaryOp.ofSymbol? symbol <;> rfl

theorem operator_binary (op : BinaryOp) (e : Expr) (stack : List Pending) :
    operator op.symbol (load e stack) = .binary op :: settle e stack := by
  rw [operator_load, BinaryOp.ofSymbol?_symbol]

theorem operator_question (e : Expr) (stack : List Pending) :
    operator "?" (load e stack) = .question :: settle e stack := by
  have unknown : BinaryOp.ofSymbol? "?" = none := by decide
  rw [operator_load, unknown]

theorem step_lexeme (v : Value) :
    step meaning stack v.lexeme = .value (.literal (meaning v.lexeme)) :: stack := by
  cases v <;> rfl

theorem step_ofName (name : String) :
    step meaning stack (ofName name) = word name stack := by
  show word (String.ofList name.toList) stack = _
  rw [String.ofList_toList]

theorem step_ofOperator (symbol : String) :
    step meaning stack (ofOperator symbol) = operator symbol stack := by
  show operator (String.ofList symbol.toList) stack = _
  rw [String.ofList_toList]

/-- The lexemes of a shown expression leave it on the stack, with its operators moved out. -/
theorem foldl_lexemes {e : Expr} (known : e.AllLiterals fun v => meaning v.lexeme = v)
    (ready : Ready stack) : e.lexemes.foldl (step meaning) stack = load e.hoisted stack := by
  induction e, known using Expr.inherited_induction generalizing stack with
  | inherit e known operand place => exact known.operand place
  | literal v known =>
    rw [Expr.lexemes, List.foldl_cons, List.foldl_nil, step_lexeme,
      known v (Expr.self_mem_parts _)]
    rfl
  | identifier name _ =>
    rw [Expr.lexemes, List.foldl_cons, List.foldl_nil, step_ofName, word_of_ready ready]
    rfl
  | binary op l r _ _ _ ihl ihr =>
    have left : l.lexemes.foldl (step meaning) (step meaning stack Lexeme.openParen) =
        load l.hoisted (.openParen :: stack) :=
      ihl trivial
    have right : r.lexemes.foldl (step meaning)
        (.binary op :: settle l.hoisted (.openParen :: stack)) =
        load r.hoisted (.binary op :: .value l.hoisted :: .openParen :: stack) :=
      ihr trivial
    rw [Expr.lexemes, List.foldl_cons, List.foldl_append, left, List.foldl_cons,
      step_ofOperator, operator_binary, List.foldl_append, right]
    show closeParen (complete _) = _
    rw [complete_load]
    rfl
  | unary op e _ _ ih =>
    have operand : e.lexemes.foldl (step meaning) (.unary op :: stack) = _ :=
      ih trivial
    rw [Expr.lexemes, List.foldl_cons, step_ofOperator, operator_of_ready ready, operand]
    rfl
  | member e property _ _ ih =>
    have object := ih ready
    rw [Expr.lexemes, List.foldl_append, object, List.foldl_cons, List.foldl_cons,
      List.foldl_nil, step_ofName]
    exact onTop_load (fun _ => id) _ _
  | index e key _ _ _ ihe ihkey =>
    have object := ihe ready
    have inner : key.lexemes.foldl (step meaning)
        (step meaning (load e.hoisted stack) Lexeme.openBracket) =
          load key.hoisted (.openBracket :: load e.hoisted stack) :=
      ihkey trivial
    rw [Expr.lexemes, List.foldl_append, object, List.foldl_cons, List.foldl_append, inner]
    show closeBracket (complete _) = _
    rw [complete_load]
    exact onTop_load (fun _ => id) _ _
  | conditional t c a _ _ _ _ iht ihc iha =>
    have test : t.lexemes.foldl (step meaning) (step meaning stack Lexeme.openParen) =
        load t.hoisted (.openParen :: stack) :=
      iht trivial
    have consequent : c.lexemes.foldl (step meaning)
        (.question :: settle t.hoisted (.openParen :: stack)) =
        load c.hoisted (.question :: .value t.hoisted :: .openParen :: stack) :=
      ihc trivial
    have colon : step meaning
        (load c.hoisted (.question :: .value t.hoisted :: .openParen :: stack)) between =
          .colon :: settle c.hoisted
            (.question :: .value t.hoisted :: .openParen :: stack) := by
      rw [← complete_load]
      rfl
    have alternate : a.lexemes.foldl (step meaning)
        (.colon :: settle c.hoisted (.question :: .value t.hoisted :: .openParen :: stack)) =
          load a.hoisted
            (.colon :: .value c.hoisted :: .question :: .value t.hoisted ::
              .openParen :: stack) :=
      iha trivial
    rw [Expr.lexemes, List.foldl_cons, List.foldl_append, test, List.foldl_cons,
      step_ofOperator, operator_question, List.foldl_append, consequent, List.foldl_cons,
      colon, List.foldl_append, alternate]
    show closeParen (complete _) = _
    rw [complete_load]
    rfl

end Pending

namespace Expr

variable {e e' : Expr} {meaning : Lexeme → Value}

/-- Expressions with the same lexemes are the same but for where unary operators stand in
accesses, if the lexemes of their literals have one meaning. -/
theorem hoisted_eq_of_lexemes_eq (known : e.AllLiterals fun v => meaning v.lexeme = v)
    (known' : e'.AllLiterals fun v => meaning v.lexeme = v) (same : e.lexemes = e'.lexemes) :
    e.hoisted = e'.hoisted := by
  have ran : e.lexemes.foldl (Pending.step meaning) [] = Pending.load e.hoisted [] :=
    Pending.foldl_lexemes known trivial
  have ran' : e'.lexemes.foldl (Pending.step meaning) [] = Pending.load e'.hoisted [] :=
    Pending.foldl_lexemes known' trivial
  rw [same, ran'] at ran
  have settled := congrArg Pending.complete ran
  rw [Pending.complete_load, Pending.complete_load] at settled
  exact (Pending.value.inj (List.cons.inj settled).1).symm

end Expr

end GuardedExpr
