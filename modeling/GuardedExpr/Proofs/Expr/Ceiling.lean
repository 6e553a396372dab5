import GuardedExpr.Proofs.Expr.Keeps

/-!
# The ceiling of the recursion

An evaluation with less room below its ceiling makes the same reads and ends in the same
way as one with more, unless it is cut off by the ceiling. Room is what counts: the ceiling
and the depth from which an evaluation starts matter only by their difference.
-/

namespace GuardedExpr

namespace EvalM

variable {α β : Type} {ceiling ceiling' : Nat}

/-- The first computation is cut off by its ceiling or does what the second one
does, from any depths that leave the first no more room below its ceiling than the
second has below the other. -/
def Cuts (ceiling ceiling' : Nat) (tight loose : EvalM α) : Prop :=
  ∀ depth depth' reads, ceiling + depth' ≤ ceiling' + depth →
    (tight ⟨depth, reads⟩).1 = .error (.eval (.tooDeep ceiling)) ∨
    ∃ result after, tight ⟨depth, reads⟩ = (result, ⟨depth, after⟩) ∧
      loose ⟨depth', reads⟩ = (result, ⟨depth', after⟩)

namespace Cuts

theorem pure (a : α) : Cuts ceiling ceiling' (pure a : EvalM α) (pure a) :=
  fun _ _ reads _ => .inr ⟨.ok a, reads, rfl, rfl⟩

theorem liftExcept (result : Except Fault Value) :
    Cuts ceiling ceiling' (Scope.eval.liftExcept result) (Scope.eval.liftExcept result) :=
  fun _ _ reads _ => .inr ⟨result, reads, rfl, rfl⟩

theorem ofRead (reading : ReadM α) :
    Cuts ceiling ceiling' (EvalM.ofRead reading) (EvalM.ofRead reading) :=
  fun _ _ reads _ => .inr ⟨.ok (reading reads).1, (reading reads).2, rfl, rfl⟩

theorem bind {tight loose : EvalM α} {next next' : α → EvalM β}
    (first : Cuts ceiling ceiling' tight loose)
    (second : ∀ a, Cuts ceiling ceiling' (next a) (next' a)) :
    Cuts ceiling ceiling' (tight >>= next) (loose >>= next') := by
  intro depth depth' reads room
  rcases first depth depth' reads room with cut | ⟨result, after, run, run'⟩
  · have ends : tight ⟨depth, reads⟩ =
        (.error (.eval (.tooDeep ceiling)), (tight ⟨depth, reads⟩).2) :=
      Prod.ext cut rfl
    rw [bind_of_error ends]
    exact .inl rfl
  · cases result with
    | error fault =>
      rw [bind_of_error run, bind_of_error run']
      exact .inr ⟨.error fault, after, rfl, rfl⟩
    | ok a =>
      rw [bind_of_ok run, bind_of_ok run']
      exact second a depth depth' after room

/-- A node takes one from the room on both sides. -/
theorem visit {tight loose : EvalM α} (h : Cuts ceiling ceiling' tight loose) :
    Cuts ceiling ceiling' (EvalM.visit ceiling tight) (EvalM.visit ceiling' loose) := by
  intro depth depth' reads room
  rcases Nat.lt_or_ge depth ceiling with below | above
  · have below' : depth' < ceiling' := by omega
    rw [visit_of_lt below, visit_of_lt below']
    rcases h (depth + 1) (depth' + 1) reads (by omega) with cut | ⟨result, after, run, run'⟩
    · exact .inl cut
    · refine .inr ⟨result, after, ?_, ?_⟩
      · rw [run]
        rfl
      · rw [run']
        rfl
  · rw [visit_of_le above]
    exact .inl rfl

end Cuts

end EvalM

namespace Scope

variable {scope : Scope} {expr : Expr}

theorem cuts_eval (scope : Scope) (ceiling' : Nat) (expr : Expr) :
    EvalM.Cuts scope.ceiling ceiling' (scope.eval expr)
      ({ scope with ceiling := ceiling' }.eval expr) := by
  induction expr with
  | literal v => exact (EvalM.Cuts.pure v).visit
  | identifier name => exact (EvalM.Cuts.liftExcept _).visit
  | binary op left right ihl ihr =>
    exact (ihl.bind fun l => ihr.bind fun r => .liftExcept (op.apply l r)).visit
  | unary op operand ih => exact (ih.bind fun v => .pure (op.apply v)).visit
  | member object property ih =>
    exact (ih.bind fun v => .ofRead (v.member scope.world property)).visit
  | index object index iho ihi =>
    exact (iho.bind fun v => ihi.bind fun key => .ofRead (v.select scope.world key)).visit
  | conditional test consequent alternate iht ihc iha =>
    refine (iht.bind fun v => ?_).visit
    split
    · exact ihc
    · exact iha

/-- A unary operation on an expression that has a value applies the operator to it, unless
the node in front of the expression leaves it too little room. -/
theorem run_unary_of_run_eq_ok {v : Value} (h : (scope.run expr).1 = .ok v) (op : UnaryOp) :
    (scope.run (.unary op expr)).1 = .ok (op.apply v) ∨
      (scope.run (.unary op expr)).1 = .error (.eval (.tooDeep scope.ceiling)) := by
  have value : (scope.eval expr ⟨0, []⟩).1 = .ok v := h
  show (scope.eval (.unary op expr) ⟨0, []⟩).1 = _ ∨
    (scope.eval (.unary op expr) ⟨0, []⟩).1 = _
  rw [eval]
  rcases Nat.lt_or_ge 0 scope.ceiling with below | above
  · rw [EvalM.visit_of_lt below]
    rcases scope.cuts_eval scope.ceiling expr 1 0 [] (Nat.le_add_right _ _) with
      cut | ⟨result, after, run, run'⟩
    · have ends : scope.eval expr ⟨1, []⟩ =
          (.error (.eval (.tooDeep scope.ceiling)), (scope.eval expr ⟨1, []⟩).2) :=
        Prod.ext cut rfl
      show ((scope.eval expr >>= _) ⟨1, []⟩).1 = _ ∨ ((scope.eval expr >>= _) ⟨1, []⟩).1 = _
      rw [EvalM.bind_of_error ends]
      exact .inr rfl
    · rw [run'] at value
      obtain rfl : result = .ok v := value
      show ((scope.eval expr >>= _) ⟨1, []⟩).1 = _ ∨ ((scope.eval expr >>= _) ⟨1, []⟩).1 = _
      rw [EvalM.bind_of_ok run]
      exact .inl rfl
  · rw [EvalM.visit_of_le above]
    exact .inr rfl

end Scope

end GuardedExpr
