import GuardedExpr.Proofs.Expr.Keeps

/-!
# One state for many evaluations

An evaluation puts the depth back that it found, whatever comes of it. So one state for
many evaluations is as good as a new one for each: all that is handed on are the reads
made so far, and a host whose answers do not depend on those makes no difference
between the evaluations at all.
-/

namespace GuardedExpr

theorem mapM_cons_apply {σ α β : Type} (step : α → StateM σ β) (a : α) (as : List α)
    (state : σ) :
    (a :: as).mapM step state =
      ((step a state).1 :: (as.mapM step (step a state).2).1,
        (as.mapM step (step a state).2).2) := by
  rw [List.mapM_cons]
  rfl

/-! ## Computations that come to the same -/

/-- Started after reads that are alike, the computation comes to the same and leaves
reads that are alike. -/
def ReadM.Repeats {α : Type} (alike : List Read → List Read → Prop) (reading : ReadM α) :
    Prop :=
  ∀ reads reads', alike reads reads' →
    (reading reads).1 = (reading reads').1 ∧ alike (reading reads).2 (reading reads').2

namespace EvalM

/-- Started at one depth after reads that are alike, the computation comes to the same, and
in either case it puts the depth back and leaves reads that are alike. -/
def Repeats {α : Type} (alike : List Read → List Read → Prop) (m : EvalM α) : Prop :=
  ∀ depth reads reads', alike reads reads' → ∃ result made made', alike made made' ∧
    m ⟨depth, reads⟩ = (result, ⟨depth, made⟩) ∧ m ⟨depth, reads'⟩ = (result, ⟨depth, made'⟩)

namespace Repeats

variable {α β : Type} {alike : List Read → List Read → Prop}

theorem pure (a : α) : Repeats alike (pure a : EvalM α) :=
  fun _ reads reads' h => ⟨.ok a, reads, reads', h, rfl, rfl⟩

theorem liftExcept (result : Except Fault Value) :
    Repeats alike (Scope.eval.liftExcept result) :=
  fun _ reads reads' h => ⟨result, reads, reads', h, rfl, rfl⟩

theorem ofRead {reading : ReadM α} (h : ReadM.Repeats alike reading) :
    Repeats alike (EvalM.ofRead reading) := by
  intro depth reads reads' before
  obtain ⟨same, after⟩ := h reads reads' before
  refine ⟨.ok (reading reads).1, (reading reads).2, (reading reads').2, after, rfl, ?_⟩
  rw [same]
  rfl

theorem bind {m : EvalM α} {next : α → EvalM β} (first : Repeats alike m)
    (second : ∀ a, Repeats alike (next a)) : Repeats alike (m >>= next) := by
  intro depth reads reads' before
  obtain ⟨result, made, made', between, run, run'⟩ := first depth reads reads' before
  cases result with
  | error fault =>
    rw [bind_of_error run, bind_of_error run']
    exact ⟨.error fault, made, made', between, rfl, rfl⟩
  | ok a =>
    rw [bind_of_ok run, bind_of_ok run']
    exact second a depth made made' between

/-- A node takes off the level that it has added, and at the ceiling it adds none. -/
theorem visit {m : EvalM α} (h : Repeats alike m) (ceiling : Nat) :
    Repeats alike (EvalM.visit ceiling m) := by
  intro depth reads reads' before
  rcases Nat.lt_or_ge depth ceiling with below | above
  · obtain ⟨result, made, made', after, run, run'⟩ := h (depth + 1) reads reads' before
    refine ⟨result, made, made', after, ?_, ?_⟩
    · rw [visit_of_lt below, run]
      rfl
    · rw [visit_of_lt below, run']
      rfl
  · rw [visit_of_le above, visit_of_le above]
    exact ⟨.error (.eval (.tooDeep ceiling)), reads, reads', before, rfl, rfl⟩

end Repeats

end EvalM

/-! ## Hosts -/

namespace World

/-- After reads that are alike the objects answer alike, and one more
read leaves them alike. -/
def Repeats (alike : List Read → List Read → Prop) (world : World) : Prop :=
  ∀ reads reads', alike reads reads' → ∀ object key,
    world.get reads object key = world.get reads' object key ∧
      alike (⟨object, key⟩ :: reads) (⟨object, key⟩ :: reads')

/-- Objects answer a read alike whatever was read before. -/
def Steady (world : World) : Prop :=
  world.Repeats fun _ _ => True

theorem repeats_eq (world : World) : world.Repeats Eq := by
  rintro reads _ rfl object key
  exact ⟨rfl, rfl⟩

end World

section

variable {alike : List Read → List Read → Prop} {world : World} (h : world.Repeats alike)
include h

theorem HostView.repeats_get (view : HostView) (key : String) :
    ReadM.Repeats alike (view.get world key) := by
  intro reads reads' before
  rw [HostView.get]
  split
  · obtain ⟨same, after⟩ := h reads reads' before view.object key
    refine ⟨?_, after⟩
    show ((world.get reads view.object key).bind _).getD _ = _
    rw [same]
    rfl
  · exact ⟨rfl, before⟩

theorem Value.repeats_member (object : Value) (property : String) :
    ReadM.Repeats alike (object.member world property) := by
  rw [Value.member.eq_def]
  split
  · cases object with
    | host view => exact view.repeats_get h property
    | _ => exact fun _ _ before => ⟨rfl, before⟩
  · exact fun _ _ before => ⟨rfl, before⟩

theorem Value.repeats_select (object key : Value) :
    ReadM.Repeats alike (object.select world key) := by
  rw [Value.select.eq_def]
  cases key.asKey? with
  | none => exact fun _ _ before => ⟨rfl, before⟩
  | some key =>
    cases object with
    | host view => exact view.repeats_get h key
    | _ => exact fun _ _ before => ⟨rfl, before⟩

end

/-! ## Evaluations -/

namespace Scope

variable (scope : Scope) {alike : List Read → List Read → Prop}

theorem repeats_eval (h : scope.world.Repeats alike) (expr : Expr) :
    EvalM.Repeats alike (scope.eval expr) := by
  induction expr with
  | literal v => exact (EvalM.Repeats.pure v).visit _
  | identifier name => exact (EvalM.Repeats.liftExcept _).visit _
  | binary op left right ihl ihr =>
    exact (ihl.bind fun l => ihr.bind fun r => .liftExcept (op.apply l r)).visit _
  | unary op operand ih => exact (ih.bind fun v => .pure (op.apply v)).visit _
  | member object property ih =>
    exact (ih.bind fun v => .ofRead (v.repeats_member h property)).visit _
  | index object index iho ihi =>
    exact (iho.bind fun v => ihi.bind fun key => .ofRead (v.repeats_select h key)).visit _
  | conditional test consequent alternate iht ihc iha =>
    refine (iht.bind fun v => ?_).visit _
    split
    · exact ihc
    · exact iha

/-- The depth is back after every evaluation, from whatever depth it
starts and however it ends. -/
theorem depth_eval (expr : Expr) (state : EvalState) :
    (scope.eval expr state).2.depth = state.depth := by
  obtain ⟨result, made, -, -, run, -⟩ :=
    scope.repeats_eval scope.world.repeats_eq expr state.depth state.reads state.reads rfl
  exact congrArg (fun ran => ran.2.depth) run

/-- Evaluates expressions one after the other, each in the state that the one before left. -/
def evalEach (exprs : List Expr) : StateM EvalState (List (Except Fault Value)) :=
  exprs.mapM fun expr => (scope.eval expr).run

theorem eval_eq_evalAnew (expr : Expr) (reads : List Read) :
    scope.eval expr { reads } =
      ((scope.evalAnew expr reads).1, { reads := (scope.evalAnew expr reads).2 }) := by
  have back := scope.depth_eval expr { reads }
  rcases run : scope.eval expr { reads } with ⟨result, depth, made⟩
  rw [run] at back
  obtain rfl : depth = 0 := back
  rw [evalAnew, run]

theorem evalEach_eq_mapM_evalAnew (exprs : List Expr) (reads : List Read) :
    scope.evalEach exprs { reads } =
      ((exprs.mapM scope.evalAnew reads).1,
        { reads := (exprs.mapM scope.evalAnew reads).2 }) := by
  induction exprs generalizing reads with
  | nil => rfl
  | cons expr exprs ih =>
    have first : (scope.eval expr).run { reads } = _ := scope.eval_eq_evalAnew expr reads
    have rest := ih (scope.evalAnew expr reads).2
    rw [evalEach] at rest
    rw [evalEach, mapM_cons_apply, mapM_cons_apply, first, rest]

theorem evalAnew_of_steady (steady : scope.world.Steady) (expr : Expr)
    (reads reads' : List Read) :
    (scope.evalAnew expr reads).1 = (scope.evalAnew expr reads').1 := by
  obtain ⟨result, made, made', -, run, run'⟩ :=
    scope.repeats_eval steady expr 0 reads reads' trivial
  exact (congrArg Prod.fst run).trans (congrArg Prod.fst run').symm

theorem mapM_evalAnew_of_steady (steady : scope.world.Steady) (exprs : List Expr)
    (reads : List Read) :
    (exprs.mapM scope.evalAnew reads).1 = exprs.map fun expr => (scope.run expr).1 := by
  induction exprs generalizing reads with
  | nil => rfl
  | cons expr exprs ih =>
    have here : (scope.evalAnew expr reads).1 = (scope.run expr).1 :=
      scope.evalAnew_of_steady steady expr reads []
    rw [mapM_cons_apply, List.map_cons, ← here, ← ih (scope.evalAnew expr reads).2]

end Scope

/-- Evaluations that share a state come to what each comes to in a new one. The depth is
back after each of them, and after the same reads a new state makes no difference to the
value, the fault or the reads. If the host does not remember reads, there is no difference
whatever was evaluated before. -/
theorem evaluations_start_anew (scope : Scope) :
    (∀ expr state, (scope.eval expr state).2.depth = state.depth) ∧
      (∀ exprs reads, scope.evalEach exprs { reads } =
        let (results, after) := exprs.mapM scope.evalAnew reads
        (results, { reads := after })) ∧
      (scope.world.Steady → ∀ exprs reads,
        (scope.evalEach exprs { reads }).1 = exprs.map fun expr => (scope.run expr).1) := by
  refine ⟨scope.depth_eval, scope.evalEach_eq_mapM_evalAnew, fun steady exprs reads => ?_⟩
  rw [scope.evalEach_eq_mapM_evalAnew]
  exact scope.mapM_evalAnew_of_steady steady exprs reads

-- Of five evaluations three fail: at the ceiling, for a name, and for a divisor.
theorem evaluations_start_anew_box :
    let world : World := ⟨fun _ _ key => some (.text key), fun _ => []⟩
    let context : Context := { vars := [("box", .host ⟨⟨0⟩, 1⟩)] }
    let scope : Scope := { world, context, ceiling := 3 }
    let lid : Expr := .member (.identifier "box") "lid"
    let exprs : List Expr := [lid, .unary .not (.unary .not lid), .identifier "__proto__",
      .binary .div lid (.literal (.number 0.0)), lid]
    world.Steady ∧
      (scope.evalEach exprs {}).1 = exprs.map (fun expr => (scope.run expr).1) ∧
      exprs.map (fun expr => (scope.run expr).1) =
        [.ok (.text "lid"), .error (.eval (.tooDeep 3)),
          .error (.security (.forbiddenAccess "__proto__")), .error (.eval .divisionByZero),
          .ok (.text "lid")] := by
  intro world context scope lid exprs
  have steady : world.Steady := fun _ _ _ _ _ => ⟨rfl, trivial⟩
  exact ⟨steady, (evaluations_start_anew scope).2.2 steady exprs [], rfl⟩

end GuardedExpr
