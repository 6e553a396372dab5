import GuardedExpr.Proofs.Expr.Ceiling
import GuardedExpr.Proofs.Expr.Faults

/-!
# Evaluation without a ceiling

An evaluation with a ceiling is one without, cut off where the ceiling is reached. It is
never cut off if the ceiling leaves room for the longest path of the tree, and it may be
spared with less room, as only the branches that are taken count.
-/

namespace GuardedExpr

/-- How many nodes the longest path from the root of the tree has. -/
def Expr.height : Expr → Nat
  | .literal _ => 1
  | .identifier _ => 1
  | .binary _ left right => max left.height right.height + 1
  | .unary _ operand => operand.height + 1
  | .member object _ => object.height + 1
  | .index object key => max object.height key.height + 1
  | .conditional test consequent alternate =>
    max test.height (max consequent.height alternate.height) + 1

/-- Evaluating with nothing to count: only the reads made so far are kept. -/
abbrev FreeM := ExceptT Fault ReadM

namespace FreeM

def ofRead {α : Type} (reading : ReadM α) : FreeM α := fun reads =>
  (.ok (reading reads).1, (reading reads).2)

def ofExcept {α : Type} (result : Except Fault α) : FreeM α := fun reads =>
  (result, reads)

variable {α β : Type} {free : FreeM α} {reads after : List Read}

theorem bind_of_ok {a : α} (h : free reads = (.ok a, after)) (next : α → FreeM β) :
    (free >>= next) reads = next a after := by
  show ExceptT.bindCont next (free reads).1 (free reads).2 = _
  rw [h]
  rfl

theorem bind_of_error {fault : Fault} (h : free reads = (.error fault, after))
    (next : α → FreeM β) :
    (free >>= next) reads = (.error fault, after) := by
  show ExceptT.bindCont next (free reads).1 (free reads).2 = _
  rw [h]
  rfl

end FreeM

section

variable (world : World) (context : Context)

/-- Evaluates an expression however deep it is. -/
def Expr.evalFreely : Expr → FreeM Value
  | .literal v => pure v
  | .identifier name =>
    if isSafeKey name then pure ((context.vars.lookup name).getD .absent)
    else throw (.security (.forbiddenAccess name))
  | .binary op left right => do
    let l ← left.evalFreely
    let r ← right.evalFreely
    FreeM.ofExcept (op.apply l r)
  | .unary op operand => do
    let v ← operand.evalFreely
    return op.apply v
  | .member object property => do
    let v ← object.evalFreely
    FreeM.ofRead (v.member world property)
  | .index object key => do
    let v ← object.evalFreely
    let k ← key.evalFreely
    FreeM.ofRead (v.select world k)
  | .conditional test consequent alternate => do
    let v ← test.evalFreely
    if v.truthy then consequent.evalFreely else alternate.evalFreely

/-- The value of an expression however deep it is, and the reads that were
made for it, in order. -/
def Expr.runFreely (expr : Expr) : Except Fault Value × List Read :=
  let (result, reads) := expr.evalFreely world context []
  (result, reads.reverse)

end

namespace EvalM

variable {α β : Type} {ceiling height height' : Nat}

/-- With `height` levels left below the ceiling the computation does what the free one
does, and that never fails for being too deep. -/
structure Suffices (ceiling height : Nat) (bounded : EvalM α) (free : FreeM α) : Prop where
  run : ∀ depth reads, depth + height ≤ ceiling →
    bounded ⟨depth, reads⟩ = ((free reads).1, ⟨depth, (free reads).2⟩)
  ne_tooDeep : ∀ reads limit, (free reads).1 ≠ .error (.eval (.tooDeep limit))

namespace Suffices

theorem mono {bounded : EvalM α} {free : FreeM α} (h : Suffices ceiling height bounded free)
    (hle : height ≤ height') : Suffices ceiling height' bounded free :=
  ⟨fun depth reads room =>
    h.run depth reads (Nat.le_trans (Nat.add_le_add_left hle depth) room), h.ne_tooDeep⟩

theorem pure (a : α) : Suffices ceiling height (pure a : EvalM α) (pure a) :=
  ⟨fun _ _ _ => rfl, fun _ _ => nofun⟩

theorem liftExcept {result : Except Fault Value}
    (h : ∀ limit, result ≠ .error (.eval (.tooDeep limit))) :
    Suffices ceiling height (Scope.eval.liftExcept result) (FreeM.ofExcept result) :=
  ⟨fun _ _ _ => rfl, fun _ => h⟩

theorem ofRead (reading : ReadM α) :
    Suffices ceiling height (EvalM.ofRead reading) (FreeM.ofRead reading) :=
  ⟨fun _ _ _ => rfl, fun _ _ => nofun⟩

theorem bind {bounded : EvalM α} {free : FreeM α} {next : α → EvalM β} {next' : α → FreeM β}
    (first : Suffices ceiling height bounded free)
    (second : ∀ a, Suffices ceiling height (next a) (next' a)) :
    Suffices ceiling height (bounded >>= next) (free >>= next') := by
  constructor
  · intro depth reads room
    have run := first.run depth reads room
    rcases ran : free reads with ⟨_ | a, after⟩
    · rw [ran] at run
      rw [bind_of_error run, FreeM.bind_of_error ran]
    · rw [ran] at run
      rw [bind_of_ok run, FreeM.bind_of_ok ran]
      exact (second a).run depth after room
  · intro reads limit
    have faultless := first.ne_tooDeep reads limit
    rcases ran : free reads with ⟨fault | a, after⟩
    · rw [ran] at faultless
      rw [FreeM.bind_of_error ran]
      intro failed
      cases failed
      exact faultless rfl
    · rw [FreeM.bind_of_ok ran]
      exact (second a).ne_tooDeep after limit

/-- A node takes one level. -/
theorem visit {bounded : EvalM α} {free : FreeM α}
    (h : Suffices ceiling height bounded free) :
    Suffices ceiling (height + 1) (EvalM.visit ceiling bounded) free := by
  refine ⟨fun depth reads room => ?_, h.ne_tooDeep⟩
  have below : depth < ceiling := by omega
  have inside := h.run (depth + 1) reads (by omega)
  rw [visit_of_lt below]
  show ((bounded ⟨depth + 1, reads⟩).1, _) = _
  rw [inside]
  rfl

end Suffices

end EvalM

namespace Scope

variable {world : World} {context : Context} {expr : Expr} {ceiling higher : Nat}

theorem lookup_ne_tooDeep (scope : Scope) (name : String) (limit : Nat) :
    scope.lookup name ≠ .error (.eval (.tooDeep limit)) := by
  rw [lookup]
  split <;> simp

theorem apply_ne_tooDeep (op : BinaryOp) (l r : Value) (limit : Nat) :
    op.apply l r ≠ .error (.eval (.tooDeep limit)) := by
  intro failed
  obtain ⟨-, -, -, same⟩ := BinaryOp.apply_eq_error_iff.1 failed
  cases same

/-- With room for the longest path of the tree an evaluation is one without a ceiling. -/
theorem suffices_eval (world : World) (context : Context) (ceiling : Nat) (expr : Expr) :
    EvalM.Suffices ceiling expr.height (eval { world, context, ceiling } expr)
      (expr.evalFreely world context) := by
  induction expr with
  | literal v => exact (EvalM.Suffices.pure v).visit
  | identifier name =>
    have looked : EvalM.Suffices ceiling 1 _ _ :=
      (EvalM.Suffices.liftExcept (lookup_ne_tooDeep { world, context, ceiling } name)).visit
    have same : FreeM.ofExcept (lookup { world, context, ceiling } name) =
        (Expr.identifier name).evalFreely world context := by
      rw [lookup, Expr.evalFreely]
      split <;> rfl
    rwa [same] at looked
  | binary op left right ihl ihr =>
    exact ((ihl.mono (Nat.le_max_left _ _)).bind fun l =>
      (ihr.mono (Nat.le_max_right _ _)).bind fun r =>
      .liftExcept (apply_ne_tooDeep op l r)).visit
  | unary op operand ih => exact (ih.bind fun v => .pure (op.apply v)).visit
  | member object property ih =>
    exact (ih.bind fun v => .ofRead (v.member world property)).visit
  | index object key iho ihk =>
    exact ((iho.mono (Nat.le_max_left _ _)).bind fun v =>
      (ihk.mono (Nat.le_max_right _ _)).bind fun k =>
      .ofRead (v.select world k)).visit
  | conditional test consequent alternate iht ihc iha =>
    refine ((iht.mono (Nat.le_max_left _ _)).bind fun v => ?_).visit
    split
    · exact ihc.mono (Nat.le_trans (Nat.le_max_left _ _) (Nat.le_max_right _ _))
    · exact iha.mono (Nat.le_trans (Nat.le_max_right _ _) (Nat.le_max_right _ _))

theorem run_eq_runFreely (h : expr.height ≤ ceiling) :
    run { world, context, ceiling } expr = expr.runFreely world context := by
  have same := (suffices_eval world context ceiling expr).run 0 [] (by omega)
  show ((eval _ expr ⟨0, []⟩).1, (eval _ expr ⟨0, []⟩).2.reads.reverse) = _
  rw [same]
  rfl

theorem runFreely_ne_tooDeep (limit : Nat) :
    (expr.runFreely world context).1 ≠ .error (.eval (.tooDeep limit)) :=
  (suffices_eval world context 0 expr).ne_tooDeep [] limit

/-- An evaluation is cut off by its ceiling or is the same below a higher one. -/
theorem run_cut_or_eq (h : ceiling ≤ higher) :
    (run { world, context, ceiling } expr).1 = .error (.eval (.tooDeep ceiling)) ∨
      run { world, context, ceiling } expr =
        run { world, context, ceiling := higher } expr := by
  have room : ceiling + 0 ≤ higher + 0 := h
  rcases cuts_eval { world, context, ceiling } higher expr 0 0 [] room with
    cut | ⟨result, after, ran, ran'⟩
  · exact .inl cut
  · refine .inr ?_
    show ((eval _ expr ⟨0, []⟩).1, (eval _ expr ⟨0, []⟩).2.reads.reverse) =
      ((eval _ expr ⟨0, []⟩).1, (eval _ expr ⟨0, []⟩).2.reads.reverse)
    rw [ran, ran']

end Scope

/-- What a ceiling does not cut off is the same below every higher ceiling, with the same
reads. Nothing is cut off whose tree is no higher than the ceiling. Whatever the ceiling,
the evaluation is cut off or is the one without a ceiling. -/
theorem ceiling_only_cuts_off (world : World) (context : Context) (expr : Expr)
    (ceiling : Nat) :
    let run := fun ceiling => Scope.run { world, context, ceiling } expr
    (∀ higher, ceiling ≤ higher → (run ceiling).1 ≠ .error (.eval (.tooDeep ceiling)) →
      run higher = run ceiling) ∧
    (expr.height ≤ ceiling → ∀ limit, (run ceiling).1 ≠ .error (.eval (.tooDeep limit))) ∧
    ((run ceiling).1 = .error (.eval (.tooDeep ceiling)) ∨
      run ceiling = expr.runFreely world context) := by
  intro run
  refine ⟨fun higher hle spared => ?_, fun room limit => ?_, ?_⟩
  · rcases Scope.run_cut_or_eq hle with cut | same
    · exact absurd cut spared
    · exact same.symm
  · show (Scope.run _ expr).1 ≠ _
    rw [Scope.run_eq_runFreely room]
    exact Scope.runFreely_ne_tooDeep limit
  · have enough : run (max ceiling expr.height) = expr.runFreely world context :=
      Scope.run_eq_runFreely (Nat.le_max_right _ _)
    rw [← enough]
    exact Scope.run_cut_or_eq (Nat.le_max_left _ _)

-- The tree is four nodes high, and two are enough for the branch that is taken.
theorem ceiling_only_cuts_off_branch :
    let world : World := ⟨fun _ _ _ => none, fun _ => []⟩
    let context : Context := { vars := [("x", .bool true)] }
    let expr : Expr := .conditional (.identifier "x") (.literal .null)
      (.unary .not (.unary .not (.identifier "x")))
    let run := fun ceiling => Scope.run { world, context, ceiling } expr
    expr.height = 4 ∧ (run 1).1 = .error (.eval (.tooDeep 1)) ∧ run 2 = (.ok .null, []) ∧
      run 4 = run 2 ∧ (∀ limit, (run 4).1 ≠ .error (.eval (.tooDeep limit))) ∧
      run 2 = expr.runFreely world context := by
  intro world context expr run
  have spared : (run 2).1 ≠ .error (.eval (.tooDeep 2)) := nofun
  obtain ⟨same, -, free⟩ := ceiling_only_cuts_off world context expr 2
  obtain ⟨-, whole, -⟩ := ceiling_only_cuts_off world context expr 4
  exact ⟨rfl, rfl, rfl, same 4 (by decide) spared, whole (by decide),
    free.resolve_left spared⟩

end GuardedExpr
