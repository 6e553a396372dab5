import GuardedExpr.Expr.Eval

/-!
# What an evaluation keeps

A property of the reads that an evaluation makes and one of the value that it gives are
shown of a computation at once, in whatever state it starts. They hold of a sequence
when they hold of its steps.
-/

namespace GuardedExpr

/-- Reads that a computation adds satisfy `made`, and the value that it
gives satisfies `given`. -/
structure ReadM.Keeps {α : Type} (made : Read → Prop) (given : α → Prop)
    (reading : ReadM α) :
    Prop where
  reads : ∀ before, ∀ read ∈ (reading before).2, read ∈ before ∨ made read
  value : ∀ before, given (reading before).1

theorem ReadM.Keeps.pure {α : Type} {made : Read → Prop} {given : α → Prop} {a : α}
    (h : given a) : ReadM.Keeps made given (pure a) :=
  ⟨fun _ _ old => .inl old, fun _ => h⟩

namespace EvalM

/-- Reads that an evaluation adds satisfy `made`, and a value that it
gives satisfies `given`. -/
structure Keeps {α : Type} (made : Read → Prop) (given : α → Prop) (m : EvalM α) : Prop where
  reads : ∀ state, ∀ read ∈ (m state).2.reads, read ∈ state.reads ∨ made read
  value : ∀ state a, (m state).1 = .ok a → given a

variable {α β : Type} {made : Read → Prop} {given : α → Prop}

theorem bind_of_ok {m : EvalM α} {state after : EvalState} {a : α}
    (h : m state = (.ok a, after)) (next : α → EvalM β) :
    (m >>= next) state = next a after := by
  show ExceptT.bindCont next (m state).1 (m state).2 = _
  rw [h]
  rfl

theorem bind_of_error {m : EvalM α} {state after : EvalState} {fault : Fault}
    (h : m state = (.error fault, after)) (next : α → EvalM β) :
    (m >>= next) state = (.error fault, after) := by
  show ExceptT.bindCont next (m state).1 (m state).2 = _
  rw [h]
  rfl

theorem visit_of_le {ceiling : Nat} {state : EvalState} (h : ceiling ≤ state.depth)
    (m : EvalM α) :
    visit ceiling m state = (.error (.eval (.tooDeep ceiling)), state) := by
  rw [visit, if_pos h]

theorem visit_of_lt {ceiling : Nat} {state : EvalState} (h : state.depth < ceiling)
    (m : EvalM α) :
    visit ceiling m state =
      ((m { state with depth := state.depth + 1 }).1,
        { (m { state with depth := state.depth + 1 }).2 with
          depth := (m { state with depth := state.depth + 1 }).2.depth - 1 }) := by
  rw [visit, if_neg (Nat.not_le.2 h)]
  rfl

namespace Keeps

theorem pure {a : α} (h : given a) : Keeps made given (pure a) := by
  refine ⟨fun _ _ old => .inl old, ?_⟩
  intro state b same
  cases same
  exact h

theorem bind {m : EvalM α} {next : α → EvalM β} {between : α → Prop} {given : β → Prop}
    (first : Keeps made between m) (second : ∀ a, between a → Keeps made given (next a)) :
    Keeps made given (m >>= next) := by
  constructor
  · intro state read h
    have earlier := first.reads state read
    rcases run : m state with ⟨_ | a, after⟩
    · rw [bind_of_error run] at h
      rw [run] at earlier
      exact earlier h
    · rw [bind_of_ok run] at h
      rw [run] at earlier
      have passed : between a := first.value state a (by rw [run])
      rcases (second a passed).reads after read h with old | new
      · exact earlier old
      · exact .inr new
  · intro state b h
    rcases run : m state with ⟨_ | a, after⟩
    · rw [bind_of_error run] at h
      cases h
    · rw [bind_of_ok run] at h
      have passed : between a := first.value state a (by rw [run])
      exact (second a passed).value after b h

theorem visit {m : EvalM α} (h : Keeps made given m) (ceiling : Nat) :
    Keeps made given (EvalM.visit ceiling m) := by
  constructor
  · intro state read there
    rcases Nat.lt_or_ge state.depth ceiling with below | above
    · rw [visit_of_lt below] at there
      exact h.reads { state with depth := state.depth + 1 } read there
    · rw [visit_of_le above] at there
      exact .inl there
  · intro state a same
    rcases Nat.lt_or_ge state.depth ceiling with below | above
    · rw [visit_of_lt below] at same
      exact h.value _ a same
    · rw [visit_of_le above] at same
      cases same

theorem ofRead {reading : ReadM α} (h : ReadM.Keeps made given reading) :
    Keeps made given (EvalM.ofRead reading) := by
  refine ⟨fun state => h.reads state.reads, ?_⟩
  intro state a same
  cases same
  exact h.value state.reads

theorem liftExcept {given : Value → Prop} {result : Except Fault Value}
    (h : ∀ value, result = .ok value → given value) :
    Keeps made given (Scope.eval.liftExcept result) :=
  ⟨fun _ _ old => .inl old, fun _ => h⟩

end Keeps

end EvalM

end GuardedExpr
