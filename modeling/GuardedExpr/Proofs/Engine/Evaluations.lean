import GuardedExpr.Proofs.Engine.Interpolation

/-!
# The evaluations of a run

Whatever way an engine is called, it works by evaluations: one for a direct call, and for a
template one for each placeholder that is filled and does not ask for a fresh id.
`evaluations` lists those of a run in order, with what the engine made of each.
-/

namespace GuardedExpr

structure Evaluation where
  source : String
  /-- The instant at which admission was asked for. -/
  instant : Nat
  admitted : Bool
  /-- Whether the source was in the cache. -/
  cached : Bool
  result : Except Fault Value

namespace Evaluation

/-- The evaluation found its expression in the cache. -/
def isHit (evaluation : Evaluation) : Bool :=
  evaluation.admitted && evaluation.cached

/-- The evaluation looked for its expression in the cache, and missed it. -/
def isMiss (evaluation : Evaluation) : Bool :=
  evaluation.admitted && !evaluation.cached

/-- The source stands for an expression. -/
def parses (limits : SourceLimits) (evaluation : Evaluation) : Bool :=
  (parseSource evaluation.source limits).isOk

end Evaluation

/-- The source that an action has evaluated. -/
def Action.source? : Action → Option String
  | .evaluate _ source => some source
  | _ => none

/-- The sources that a call has evaluated, in order. -/
def Call.sources (settings : Settings) : Call → List String
  | .evaluate _ source => [source]
  | .evaluateSafe _ source => [source]
  | .interpolate _ template =>
    GuardedExpr.sources
      (((settings.pieces template).filterMap Piece.inner?).take settings.maxSubstitutions)
  | .clearCache => []
  | .cacheStats => []

theorem filterMap_source?_filling (raw : RawContext) (inners : List (List Char)) :
    (inners.map (Action.filling raw)).filterMap Action.source? = sources inners := by
  induction inners with
  | nil => rfl
  | cons inner inners ih =>
    rw [List.map_cons]
    by_cases h : trim inner = uidMark
    · rw [Action.filling_of_eq h, List.filterMap_cons_none rfl, ih]
      simp [sources, h]
    · have source : Action.source? (.evaluate raw (String.ofList (trim inner))) =
          some (String.ofList (trim inner)) := rfl
      rw [Action.filling_of_ne h, List.filterMap_cons_some source, ih]
      simp [sources, h]

theorem Call.filterMap_source?_actions (settings : Settings) (call : Call) :
    (call.actions settings).filterMap Action.source? = call.sources settings := by
  cases call with
  | interpolate raw template => exact filterMap_source?_filling raw _
  | evaluate raw source => rfl
  | evaluateSafe raw source => rfl
  | clearCache => rfl
  | cacheStats => rfl

namespace Engine

/-- What an engine makes of an evaluation. -/
def evaluation (env : Surroundings) (engine : Engine) (raw : RawContext) (source : String) :
    Evaluation where
  source
  instant := env.clock engine.looks
  admitted := engine.admits env
  cached := engine.cache.contains source
  result := (evaluate env raw source engine).1

/-- The evaluation that an action is, if it is one. -/
def evaluation? (env : Surroundings) (engine : Engine) : Action → Option Evaluation
  | .evaluate raw source => some (engine.evaluation env raw source)
  | _ => none

/-- The evaluations of a run, in order. -/
def evaluations (env : Surroundings) : List Action → Engine → List Evaluation
  | [], _ => []
  | action :: actions, engine =>
    (engine.evaluation? env action).toList ++
      evaluations env actions (perform env action engine).2

variable {env : Surroundings} {settings : Settings}

theorem after_append (actions more : List Action) (engine : Engine) :
    after env (actions ++ more) engine = after env more (after env actions engine) := by
  induction actions generalizing engine with
  | nil => rfl
  | cons action actions ih => rw [List.cons_append, after_cons, ih, after_cons]

theorem evaluations_append (actions more : List Action) (engine : Engine) :
    evaluations env (actions ++ more) engine =
      evaluations env actions engine ++ evaluations env more (after env actions engine) := by
  induction actions generalizing engine with
  | nil => rfl
  | cons action actions ih =>
    rw [List.cons_append, evaluations, evaluations, ih, List.append_assoc, after_cons]

theorem map_source_evaluations (actions : List Action) (engine : Engine) :
    (evaluations env actions engine).map Evaluation.source =
      actions.filterMap Action.source? := by
  induction actions generalizing engine with
  | nil => rfl
  | cons action actions ih =>
    rw [evaluations, List.map_append, ih]
    cases action <;> rfl

theorem length_evaluations (actions : List Action) (engine : Engine) :
    (evaluations env actions engine).length = (actions.filterMap Action.source?).length := by
  rw [← map_source_evaluations actions engine, List.length_map]

/-- An evaluation stands in the list behind those of the actions in front of it. -/
theorem getElem?_evaluations (done rest : List Action) (raw : RawContext) (source : String)
    (engine : Engine) :
    (evaluations env (done ++ .evaluate raw source :: rest) engine)[
        (done.filterMap Action.source?).length]? =
      some ((after env done engine).evaluation env raw source) := by
  rw [evaluations_append, ← length_evaluations done engine,
    List.getElem?_append_right (Nat.le_refl _), Nat.sub_self]
  rfl

/-- A run of calls is the run of their actions. -/
theorem afterCalls_eq {engine : Engine} (h : engine.settings = settings)
    (calls : List Call) :
    afterCalls env calls engine =
      after env (calls.flatMap (Call.actions settings)) engine := by
  induction calls generalizing engine with
  | nil => rfl
  | cons call calls ih =>
    have kept : (after env (call.actions settings) engine).settings = settings :=
      after_preserves (fun action engine same =>
        (settings_perform action engine).trans same) _ h
    rw [afterCalls_cons, serve_eq, h, ih kept, List.flatMap_cons, after_append]

theorem filterMap_source?_flatMap_actions (settings : Settings) (calls : List Call) :
    (calls.flatMap (Call.actions settings)).filterMap Action.source? =
      calls.flatMap (Call.sources settings) := by
  induction calls with
  | nil => rfl
  | cons call calls ih =>
    rw [List.flatMap_cons, List.filterMap_append, ih, Call.filterMap_source?_actions,
      List.flatMap_cons]

end Engine

end GuardedExpr
