import GuardedExpr.Proofs.Parse.Outcome

/-!
# Properties made of steps

A property that the steps of parsing have, and that parsers in a row keep, is one of every
parser that is made of such steps. It goes through a primary, the rounds of the loops and a
conditional once and for all. The rounds that a loop takes and the unary operators are read
off all the tokens to come, and are left to each property.
-/

namespace GuardedExpr

namespace Parse

/-- A property that the steps have and that parsers in a row keep. Of a token that is
looked at, `seen` is known. -/
structure KeptBySteps (seen : Token → Prop) (P : {α : Type} → ParseM α → Prop) : Prop where
  pure {α : Type} (a : α) : P (pure a : ParseM α)
  bind {α β : Type} {p : ParseM α} {f : α → ParseM β} : P p → (∀ a, P (f a)) → P (p >>= f)
  peek_bind {α : Type} {f : Option Token → ParseM α} :
    (∀ next, (∀ token ∈ next, seen token) → P (f next)) → P (peek >>= f)
  advance : P advance
  accept (wanted : Token → Bool) : P (accept wanted)
  enter : P enter
  leave : P leave
  number {token : Token} : seen token → token.kind = .number → P (number token)
  fail {α : Type} {cause : ParseCause} :
    (∀ text, cause ≠ .invalidNumber text) → P (fail cause : ParseM α)
  failAt {α : Type} {cause : ParseCause} (position : Nat) :
    (∀ text, cause ≠ .invalidNumber text) → P (failAt position cause : ParseM α)

namespace KeptBySteps

variable {seen : Token → Prop} {P : {α : Type} → ParseM α → Prop} {sub : ParseM Expr}

theorem primary (kept : KeptBySteps seen P) (hsub : P sub) : P (primary sub) := by
  rw [Parse.primary]
  refine kept.peek_bind fun next known => ?_
  cases next with
  | none => exact kept.fail (by simp)
  | some token =>
    dsimp only
    cases kind : token.kind with
    | number => exact kept.bind kept.advance fun _ => kept.number (known token rfl) kind
    | string | boolean | null | identifier =>
      exact kept.bind kept.advance fun _ => kept.pure _
    | leftParen =>
      refine kept.bind kept.advance fun _ => kept.bind kept.enter fun _ =>
        kept.bind hsub fun inner => kept.bind (kept.accept _) fun closed => ?_
      split
      · exact kept.bind kept.leave fun _ => kept.pure inner
      · exact kept.peek_bind fun _ _ => kept.failAt _ (by simp)
    | _ => exact kept.fail (by simp)

theorem accesses (kept : KeptBySteps seen P) (hsub : P sub) (budget : List Token)
    (object : Expr) :
    P (accesses sub budget object) := by
  induction budget generalizing object with
  | nil => exact kept.pure object
  | cons _ budget ih =>
    rw [Parse.accesses]
    refine kept.peek_bind fun next _ => ?_
    cases next with
    | none => exact kept.pure object
    | some token =>
      dsimp only
      cases token.kind with
      | dot =>
        refine kept.bind kept.advance fun _ => kept.peek_bind fun name _ => ?_
        cases name with
        | none => exact kept.fail (by simp)
        | some name =>
          dsimp only
          split
          · exact kept.bind kept.advance fun _ => ih _
          · exact kept.fail (by simp)
      | leftBracket =>
        refine kept.bind kept.advance fun _ => kept.bind kept.enter fun _ =>
          kept.bind hsub fun index => kept.bind (kept.accept _) fun closed => ?_
        split
        · exact kept.bind kept.leave fun _ => ih _
        · exact kept.peek_bind fun _ _ => kept.failAt _ (by simp)
      | _ => exact kept.pure object

theorem operations (kept : KeptBySteps seen P) {level : List BinaryOp}
    {operand : ParseM Expr} (hoperand : P operand) (budget : List Token) (left : Expr) :
    P (operations level operand budget left) := by
  induction budget generalizing left with
  | nil => exact kept.pure left
  | cons _ budget ih =>
    rw [Parse.operations]
    refine kept.peek_bind fun next _ => ?_
    cases next.bind (binaryOp? level) with
    | none => exact kept.pure left
    | some op => exact kept.bind kept.advance fun _ => kept.bind hoperand fun right => ih _

theorem conditionalWith (kept : KeptBySteps seen P) (hsub : P sub)
    (htest : P (binary sub BinaryOp.levels)) : P (conditionalWith sub) := by
  rw [Parse.conditionalWith]
  refine kept.bind htest fun test => kept.bind (kept.accept _) fun question => ?_
  split
  · refine kept.bind kept.enter fun _ => kept.bind hsub fun consequent =>
      kept.bind (kept.accept _) fun colon => ?_
    split
    · exact kept.bind hsub fun alternate => kept.bind kept.leave fun _ => kept.pure _
    · exact kept.peek_bind fun _ _ => kept.fail (by simp)
  · exact kept.pure test

end KeptBySteps

end Parse

end GuardedExpr
