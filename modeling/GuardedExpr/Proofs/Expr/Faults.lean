import GuardedExpr.Proofs.Expr.Keeps
import GuardedExpr.Proofs.Expr.Parts
import GuardedExpr.Proofs.Value.Zero

/-!
# Where an evaluation fails

A node fails by itself if it stands at the ceiling, names a variable that may not be read,
or divides by zero; otherwise it fails as the first of its operands that does. So an
evaluation fails exactly with the fault of a node that it comes to.
-/

namespace GuardedExpr

namespace EvalM

variable {α β : Type} {m : EvalM α} {state : EvalState} {fault : Fault}

theorem bind_fst_eq_error_iff {next : α → EvalM β} :
    ((m >>= next) state).1 = .error fault ↔
      (m state).1 = .error fault ∨
        ∃ a after, m state = (.ok a, after) ∧ (next a after).1 = .error fault := by
  rcases run : m state with ⟨_ | a, after⟩
  · rw [bind_of_error run]
    constructor
    · rintro ⟨⟩
      exact .inl rfl
    · rintro (failed | ⟨_, _, ran, -⟩)
      · cases failed
        rfl
      · cases ran
  · rw [bind_of_ok run]
    refine ⟨fun failed => .inr ⟨a, after, rfl, failed⟩, ?_⟩
    rintro (failed | ⟨_, _, ran, failed⟩)
    · cases failed
    · cases ran
      exact failed

end EvalM

/-- The state in which a node evaluates the first of its operands. -/
def EvalState.deeper (state : EvalState) : EvalState :=
  { state with depth := state.depth + 1 }

theorem EvalM.visit_fst_eq_error_iff {α : Type} {m : EvalM α} {state : EvalState}
    {fault : Fault} {ceiling : Nat} :
    (visit ceiling m state).1 = .error fault ↔
      (ceiling ≤ state.depth ∧ fault = .eval (.tooDeep ceiling)) ∨
        (state.depth < ceiling ∧ (m state.deeper).1 = .error fault) := by
  rcases Nat.lt_or_ge state.depth ceiling with below | above
  · rw [visit_of_lt below, EvalState.deeper]
    simp [below, Nat.not_le.2 below]
  · rw [visit_of_le above]
    simp [above, Nat.not_lt.2 above, eq_comm]

theorem BinaryOp.apply_eq_error_iff {op : BinaryOp} {l r : Value} {fault : Fault} :
    op.apply l r = .error fault ↔
      op = .div ∧ l.isVoid = false ∧ r.isNumberZero = true ∧
      fault = .eval .divisionByZero := by
  cases op with
  | div =>
    rw [apply]
    split
    case isTrue void =>
      refine ⟨nofun, fun ⟨_, left, zero, _⟩ => ?_⟩
      rw [left, Value.isVoid_of_isNumberZero zero] at void
      cases void
    case isFalse void =>
      rw [Bool.or_eq_true, not_or, Bool.not_eq_true, Bool.not_eq_true] at void
      rw [Value.div_eq_error_iff]
      exact ⟨fun h => ⟨rfl, void.1, h⟩, fun h => h.2.2⟩
  | add | sub | mul | rem =>
    rw [apply]
    split <;> exact ⟨nofun, nofun⟩
  | _ => exact ⟨nofun, nofun⟩

namespace Scope

variable {scope : Scope} {node operand part expr : Expr} {state start place : EvalState}
  {fault : Fault}

theorem lookup_eq_error_iff {name : String} :
    scope.lookup name = .error fault ↔
      isSafeKey name = false ∧ fault = .security (.forbiddenAccess name) := by
  rw [lookup]
  split
  case isTrue safe => simp [safe]
  case isFalse denied =>
    rw [Bool.not_eq_true] at denied
    simp [denied, eq_comm]

/-- The node, evaluated from a state, evaluates its operand from another one. -/
inductive Starts (scope : Scope) : Expr → EvalState → Expr → EvalState → Prop
  | left {op : BinaryOp} {l r : Expr} {state : EvalState}
      (room : state.depth < scope.ceiling) :
      Starts scope (.binary op l r) state l state.deeper
  | right {op : BinaryOp} {l r : Expr} {state between : EvalState} {v : Value}
      (room : state.depth < scope.ceiling)
      (before : scope.eval l state.deeper = (.ok v, between)) :
      Starts scope (.binary op l r) state r between
  | operand {op : UnaryOp} {e : Expr} {state : EvalState}
      (room : state.depth < scope.ceiling) :
      Starts scope (.unary op e) state e state.deeper
  | object {e : Expr} {property : String} {state : EvalState}
      (room : state.depth < scope.ceiling) :
      Starts scope (.member e property) state e state.deeper
  | indexed {e key : Expr} {state : EvalState} (room : state.depth < scope.ceiling) :
      Starts scope (.index e key) state e state.deeper
  | key {e key : Expr} {state between : EvalState} {v : Value}
      (room : state.depth < scope.ceiling)
      (before : scope.eval e state.deeper = (.ok v, between)) :
      Starts scope (.index e key) state key between
  | test {t c a : Expr} {state : EvalState} (room : state.depth < scope.ceiling) :
      Starts scope (.conditional t c a) state t state.deeper
  | consequent {t c a : Expr} {state between : EvalState} {v : Value}
      (room : state.depth < scope.ceiling)
      (before : scope.eval t state.deeper = (.ok v, between))
      (chosen : v.truthy = true) : Starts scope (.conditional t c a) state c between
  | alternate {t c a : Expr} {state between : EvalState} {v : Value}
      (room : state.depth < scope.ceiling)
      (before : scope.eval t state.deeper = (.ok v, between))
      (chosen : v.truthy = false) : Starts scope (.conditional t c a) state a between

theorem Starts.mem_operands (h : scope.Starts node state operand start) :
    operand ∈ node.operands := by
  cases h <;> simp [Expr.operands]

/-- The evaluation of an expression from a state comes to a part of it in another state. -/
inductive ComesTo (scope : Scope) : Expr → EvalState → Expr → EvalState → Prop
  | self {expr : Expr} {state : EvalState} : ComesTo scope expr state expr state
  | inside {node operand part : Expr} {state start place : EvalState}
      (first : scope.Starts node state operand start)
      (further : ComesTo scope operand start part place) :
      ComesTo scope node state part place

theorem ComesTo.mem_parts (h : scope.ComesTo expr state part place) : part ∈ expr.parts := by
  induction h with
  | self => exact Expr.self_mem_parts _
  | inside first _ ih => exact Expr.mem_parts_iff.2 (.inr ⟨_, first.mem_operands, ih⟩)

/-- The node, evaluated from a state, fails by itself. -/
inductive Raises (scope : Scope) : Expr → EvalState → Fault → Prop
  | ceiling {node : Expr} {state : EvalState} (above : scope.ceiling ≤ state.depth) :
      Raises scope node state (.eval (.tooDeep scope.ceiling))
  | forbidden {name : String} {state : EvalState} (room : state.depth < scope.ceiling)
      (denied : isSafeKey name = false) :
      Raises scope (.identifier name) state (.security (.forbiddenAccess name))
  | zero {l r : Expr} {state between after : EvalState} {v w : Value}
      (room : state.depth < scope.ceiling)
      (left : scope.eval l state.deeper = (.ok v, between))
      (right : scope.eval r between = (.ok w, after)) (solid : v.isVoid = false)
      (divisor : w.isNumberZero = true) :
      Raises scope (.binary .div l r) state (.eval .divisionByZero)

/-! ## Faults come from nodes -/

theorem exists_eval_eq_visit (scope : Scope) (node : Expr) :
    ∃ parts, scope.eval node = EvalM.visit scope.ceiling parts := by
  cases node <;> exact ⟨_, by rw [eval]⟩

theorem Raises.eval_eq_error (h : scope.Raises node state fault) :
    (scope.eval node state).1 = .error fault := by
  cases h with
  | ceiling above =>
    obtain ⟨parts, visits⟩ := exists_eval_eq_visit scope node
    rw [visits, EvalM.visit_of_le above]
  | forbidden room denied =>
    rw [eval, EvalM.visit_fst_eq_error_iff]
    exact .inr ⟨room, lookup_eq_error_iff.2 ⟨denied, rfl⟩⟩
  | zero room left right solid divisor =>
    rw [eval, EvalM.visit_fst_eq_error_iff, EvalM.bind_of_ok left, EvalM.bind_of_ok right]
    exact .inr ⟨room, BinaryOp.apply_eq_error_iff.2 ⟨rfl, solid, divisor, rfl⟩⟩

/-- An operand that fails makes its node fail. -/
theorem Starts.eval_eq_error (h : scope.Starts node state operand start)
    (failed : (scope.eval operand start).1 = .error fault) :
    (scope.eval node state).1 = .error fault := by
  cases h with
  | left room | operand room | object room | indexed room | test room =>
    rw [eval, EvalM.visit_fst_eq_error_iff, EvalM.bind_fst_eq_error_iff]
    exact .inr ⟨room, .inl failed⟩
  | right room before | key room before =>
    rw [eval, EvalM.visit_fst_eq_error_iff, EvalM.bind_of_ok before,
      EvalM.bind_fst_eq_error_iff]
    exact .inr ⟨room, .inl failed⟩
  | consequent room before chosen | alternate room before chosen =>
    rw [eval, EvalM.visit_fst_eq_error_iff, EvalM.bind_of_ok before, chosen]
    exact .inr ⟨room, failed⟩

/-- A node that fails does so by itself or as an operand that it evaluates. -/
theorem raises_or_exists_starts (h : (scope.eval node state).1 = .error fault) :
    scope.Raises node state fault ∨
      ∃ operand start, scope.Starts node state operand start ∧
        (scope.eval operand start).1 = .error fault := by
  rcases Nat.lt_or_ge state.depth scope.ceiling with room | above
  -- At the ceiling a node fails whatever it is, before it evaluates any operand.
  case inr =>
    obtain ⟨parts, visits⟩ := exists_eval_eq_visit scope node
    rw [visits, EvalM.visit_of_le above] at h
    obtain rfl := Except.error.inj h
    exact .inl (.ceiling above)
  cases node with
  | literal v =>
    rw [eval, EvalM.visit_of_lt room] at h
    cases h
  | identifier name =>
    rw [eval, EvalM.visit_of_lt room] at h
    obtain ⟨denied, rfl⟩ := lookup_eq_error_iff.1 h
    exact .inl (.forbidden room denied)
  | binary op l r =>
    rw [eval, EvalM.visit_of_lt room] at h
    rcases EvalM.bind_fst_eq_error_iff.1 h with failed | ⟨v, between, left, h⟩
    · exact .inr ⟨l, _, .left room, failed⟩
    rcases EvalM.bind_fst_eq_error_iff.1 h with failed | ⟨w, after, right, h⟩
    · exact .inr ⟨r, _, .right room left, failed⟩
    obtain ⟨rfl, solid, divisor, rfl⟩ := BinaryOp.apply_eq_error_iff.1 h
    exact .inl (.zero room left right solid divisor)
  | unary op e =>
    rw [eval, EvalM.visit_of_lt room] at h
    rcases EvalM.bind_fst_eq_error_iff.1 h with failed | ⟨_, _, -, h⟩
    · exact .inr ⟨e, _, .operand room, failed⟩
    · cases h
  | member e property =>
    rw [eval, EvalM.visit_of_lt room] at h
    rcases EvalM.bind_fst_eq_error_iff.1 h with failed | ⟨_, _, -, h⟩
    · exact .inr ⟨e, _, .object room, failed⟩
    · cases h
  | index e key =>
    rw [eval, EvalM.visit_of_lt room] at h
    rcases EvalM.bind_fst_eq_error_iff.1 h with failed | ⟨_, between, object, h⟩
    · exact .inr ⟨e, _, .indexed room, failed⟩
    rcases EvalM.bind_fst_eq_error_iff.1 h with failed | ⟨_, _, -, h⟩
    · exact .inr ⟨key, _, .key room object, failed⟩
    · cases h
  | conditional t c a =>
    rw [eval, EvalM.visit_of_lt room] at h
    rcases EvalM.bind_fst_eq_error_iff.1 h with failed | ⟨v, between, test, h⟩
    · exact .inr ⟨t, _, .test room, failed⟩
    split at h
    case isTrue chosen => exact .inr ⟨c, _, .consequent room test chosen, h⟩
    case isFalse chosen =>
      exact .inr ⟨a, _, .alternate room test (Bool.eq_false_iff.2 chosen), h⟩

/-- An evaluation fails exactly with the fault of a node that it comes to. -/
theorem eval_eq_error_iff : (scope.eval expr state).1 = .error fault ↔
    ∃ part place, scope.ComesTo expr state part place ∧ scope.Raises part place fault := by
  constructor
  · intro h
    induction expr using Expr.operands_induction generalizing state with
    | step expr ih =>
      rcases raises_or_exists_starts h with raises | ⟨operand, start, starts, failed⟩
      · exact ⟨expr, state, .self, raises⟩
      · obtain ⟨part, place, further, raises⟩ := ih operand starts.mem_operands failed
        exact ⟨part, place, .inside starts further, raises⟩
  · rintro ⟨part, place, comes, raises⟩
    induction comes with
    | self => exact raises.eval_eq_error
    | inside starts _ ih => exact starts.eval_eq_error (ih raises)

end Scope

end GuardedExpr
