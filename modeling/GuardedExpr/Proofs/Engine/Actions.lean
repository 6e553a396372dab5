import GuardedExpr.Engine

/-!
# Runs of an engine

A run serves calls one after the other. Every call comes down to a few actions, known
beforehand: a template to one for each placeholder that it fills, each of the other calls
to a single one. What is true of actions is so also true inside templates.
-/

namespace GuardedExpr

inductive Call where
  | evaluate (raw : RawContext) (source : String)
  | evaluateSafe (raw : RawContext) (source : String)
  | interpolate (raw : RawContext) (template : String)
  | clearCache
  | cacheStats

/-- What an engine does as one step. -/
inductive Action where
  | evaluate (raw : RawContext) (source : String)
  | drawUid
  | clearCache
  | readStats

/-- What comes back from a call or an action. -/
inductive Answer where
  | result (value : Except Fault Value)
  | outcome (data : Outcome)
  | text (shown : String)
  | stats (counts : Recency.Stats)
  | done

namespace Answer

/-- What a template shows of an answer. -/
def shown : Answer → String
  | .result value => Engine.shown value
  | .text s => s
  | _ => ""

/-- The answer in plain data. -/
def plain : Answer → Answer
  | .result value => .outcome (.ofResult value)
  | answer => answer

end Answer

def Piece.inner? : Piece → Option (List Char)
  | .verbatim _ => none
  | .placeholder inner => some inner

/-- The pieces with texts in the places of their placeholders. Placeholders
without a text are left out. -/
def weave : List Piece → List String → List Char
  | [], _ => []
  | .verbatim c :: pieces, texts => c :: weave pieces texts
  | .placeholder _ :: pieces, [] => weave pieces []
  | .placeholder _ :: pieces, text :: texts => text.toList ++ weave pieces texts

/-- The pieces of the part of a template that is looked at. -/
def Settings.pieces (settings : Settings) (template : String) : List Piece :=
  Template.pieces (template.toList.take settings.maxTemplateLength)

/-- The action that fills a placeholder. -/
def Action.filling (raw : RawContext) (inner : List Char) : Action :=
  if trim inner = "__uid".toList then .drawUid
  else .evaluate raw (String.ofList (trim inner))

/-- The actions that fill at most `room` placeholders. -/
def fillings (raw : RawContext) (room : Nat) (pieces : List Piece) : List Action :=
  ((pieces.filterMap Piece.inner?).take room).map (Action.filling raw)

namespace Call

/-- The actions that a call comes down to. -/
def actions (settings : Settings) : Call → List Action
  | .evaluate raw source => [.evaluate raw source]
  | .evaluateSafe raw source => [.evaluate raw source]
  | .interpolate raw template =>
    fillings raw settings.maxSubstitutions (settings.pieces template)
  | .clearCache => [.clearCache]
  | .cacheStats => [.readStats]

/-- The answer of a call, from those of its actions. -/
def conclude (settings : Settings) (answers : List Answer) : Call → Answer
  | .evaluateSafe _ _ => (answers.headD .done).plain
  | .interpolate _ template =>
    .text (String.ofList (weave (settings.pieces template) (answers.map Answer.shown)))
  | _ => answers.headD .done

end Call

namespace Engine

variable (env : Surroundings)

def perform : Action → StateM Engine Answer
  | .evaluate raw source => return .result (← evaluate env raw source)
  | .drawUid => return .text (← freshUid env)
  | .clearCache => do
    clearCache
    return .done
  | .readStats => return .stats (← get).stats

def performAll : List Action → StateM Engine (List Answer)
  | [] => return []
  | action :: actions => do
    let answer ← perform env action
    let answers ← performAll actions
    return answer :: answers

def serve : Call → StateM Engine Answer
  | .evaluate raw source => return .result (← evaluate env raw source)
  | .evaluateSafe raw source => return .outcome (← evaluateSafe env raw source)
  | .interpolate raw template => return .text (← interpolate env raw template)
  | .clearCache => do
    clearCache
    return .done
  | .cacheStats => return .stats (← get).stats

def serveAll : List Call → StateM Engine (List Answer)
  | [] => return []
  | call :: calls => do
    let answer ← serve env call
    let answers ← serveAll calls
    return answer :: answers

/-- The engine that actions leave behind. -/
def after (actions : List Action) (engine : Engine) : Engine :=
  (performAll env actions engine).2

/-- The engine that calls leave behind. -/
def afterCalls (calls : List Call) (engine : Engine) : Engine :=
  (serveAll env calls engine).2

variable {env}

theorem after_cons (action : Action) (actions : List Action) (engine : Engine) :
    after env (action :: actions) engine =
      after env actions (perform env action engine).2 := rfl

theorem afterCalls_cons (call : Call) (calls : List Call) (engine : Engine) :
    afterCalls env (call :: calls) engine =
      afterCalls env calls (serve env call engine).2 := rfl

theorem performAll_cons (action : Action) (actions : List Action) (engine : Engine) :
    performAll env (action :: actions) engine =
      ((perform env action engine).1 ::
        (performAll env actions (perform env action engine).2).1,
        after env (action :: actions) engine) := rfl

/-- The answer to an action is the one that it gets from the engine it finds. -/
theorem getElem?_performAll (done rest : List Action) (action : Action) (engine : Engine) :
    (performAll env (done ++ action :: rest) engine).1[done.length]? =
      some (perform env action (after env done engine)).1 := by
  induction done generalizing engine with
  | nil => rfl
  | cons first done ih =>
    rw [List.cons_append, performAll_cons, List.length_cons, List.getElem?_cons_succ, ih,
      after_cons]

theorem substitute_eq (raw : RawContext) (inner : List Char) :
    substitute env raw inner = Answer.shown <$> perform env (.filling raw inner) := by
  by_cases h : trim inner = "__uid".toList
  · simp only [substitute, Action.filling, if_pos h, perform, bind_pure_comp,
      Functor.map_map]
    exact (id_map (freshUid env)).symm
  · simp only [substitute, Action.filling, if_neg h, perform, bind_pure_comp,
      Functor.map_map]
    rfl

/-- Filling is performing the actions of the placeholders that there is room for. -/
theorem fill_eq (raw : RawContext) (room : Nat) (pieces : List Piece) :
    fill env raw room pieces =
      (fun answers => weave pieces (answers.map Answer.shown)) <$>
        performAll env (fillings raw room pieces) := by
  induction pieces generalizing room with
  | nil => cases room <;> simp [fill, fillings, performAll, weave]
  | cons piece pieces ih =>
    cases piece with
    | verbatim c =>
      have same : fillings raw room (.verbatim c :: pieces) = fillings raw room pieces := rfl
      rw [fill, ih, same]
      simp [weave]
    | placeholder inner =>
      cases room with
      | zero =>
        rw [fill, ih]
        simp [fillings, performAll, weave]
      | succ room =>
        have split : fillings raw (room + 1) (.placeholder inner :: pieces) =
            .filling raw inner :: fillings raw room pieces := rfl
        rw [fill, ih, substitute_eq, split]
        simp [performAll, weave]

/-- Serving a call is performing its actions and concluding from their answers. -/
theorem serve_eq (call : Call) (engine : Engine) :
    serve env call engine =
      (call.conclude engine.settings
        (performAll env (call.actions engine.settings) engine).1,
        after env (call.actions engine.settings) engine) := by
  cases call with
  | evaluate raw source => rfl
  | evaluateSafe raw source => rfl
  | interpolate raw template =>
    have filled := congrFun (@fill_eq env raw engine.settings.maxSubstitutions
      (engine.settings.pieces template)) engine
    show (Answer.text
      (String.ofList (fill env raw _ (engine.settings.pieces template) engine).1),
      (fill env raw _ (engine.settings.pieces template) engine).2) = _
    rw [filled]
    rfl
  | clearCache => rfl
  | cacheStats => rfl

section

variable {P : Engine → Prop} {engine : Engine}

/-- What every action keeps, a run keeps. -/
theorem after_preserves
    (hstep : ∀ (action : Action) (engine : Engine), P engine →
      P (perform env action engine).2)
    (actions : List Action) (h : P engine) : P (after env actions engine) := by
  induction actions generalizing engine with
  | nil => exact h
  | cons action actions ih =>
    rw [after_cons]
    exact ih (hstep action engine h)

theorem afterCalls_preserves
    (hstep : ∀ (action : Action) (engine : Engine), P engine →
      P (perform env action engine).2)
    (calls : List Call) (h : P engine) : P (afterCalls env calls engine) := by
  induction calls generalizing engine with
  | nil => exact h
  | cons call calls ih =>
    rw [afterCalls_cons, serve_eq]
    exact ih (after_preserves hstep _ h)

end

end Engine

end GuardedExpr
