import GuardedExpr.Admission
import GuardedExpr.Expr.Eval
import GuardedExpr.Expr.Parse
import GuardedExpr.Recency
import GuardedExpr.Settings
import GuardedExpr.Template
import GuardedExpr.Uid

/-!
# The engine

An engine admits evaluations, keeps parsed expressions, and fills templates. Every
evaluation, also that of a placeholder, asks for admission first; one that is refused
yields an absent value and touches nothing else. Time and fresh ids come from outside, and
the engine counts how often it asked for each. Objects of the host may answer by what they
were asked before, so the reads of one evaluation are handed on to the next.
-/

namespace GuardedExpr

structure Surroundings where
  /-- The instant at the `n`-th look at the clock, in milliseconds. -/
  clock : Nat → Nat
  /-- The `n`-th fresh id. -/
  uid : Nat → Uid
  world : World

structure Engine where
  settings : Settings
  cache : Recency Expr
  admission : Admission
  looks : Nat := 0
  drawn : Nat := 0
  /-- The reads made so far, the latest first. -/
  reads : List Read := []

/-- The result of an evaluation as plain data. -/
structure Outcome where
  success : Bool
  value : Option Value
  error : Option String

def Outcome.ofResult : Except Fault Value → Outcome
  | .ok value => ⟨true, some value, none⟩
  | .error fault => ⟨false, none, some fault.message⟩

namespace Engine

def ofSettings (settings : Settings) : Engine where
  settings
  cache := .empty settings.cacheCapacity
  admission := { limit := settings.rateLimit, window := settings.rateWindow }

def sourceLimits (engine : Engine) : SourceLimits where
  maxLength := engine.settings.maxExpressionLength
  maxTokens := engine.settings.maxTokens

def requestAdmission (env : Surroundings) : StateM Engine Bool := fun engine =>
  let (admitted, admission) := engine.admission.request (env.clock engine.looks)
  (admitted, { engine with admission, looks := engine.looks + 1 })

/-- The expression that a source is, from the cache or parsed and kept there. -/
def parsed (source : String) : StateM Engine (Except Fault Expr) := fun engine =>
  match engine.cache.get source with
  | (some expr, cache) => (.ok expr, { engine with cache })
  | (none, cache) =>
    match parseSource source engine.sourceLimits with
    | .error fault => (.error fault, { engine with cache })
    | .ok expr => (.ok expr, { engine with cache := cache.put source expr })

/-- Evaluates an expression against a raw context, behind the reads of
earlier evaluations. -/
def evaluateExpr (env : Surroundings) (raw : RawContext) (expr : Expr) :
    StateM Engine (Except Fault Value) := fun engine =>
  let scope : Scope :=
    { world := env.world, context := sanitize raw, ceiling := engine.settings.maxEvalDepth }
  let (result, reads) := scope.evalAnew expr engine.reads
  (result, { engine with reads })

/-- Evaluates a source against a raw context. A call that is not admitted
yields an absent value. -/
def evaluate (env : Surroundings) (raw : RawContext) (source : String) :
    StateM Engine (Except Fault Value) := do
  if ← requestAdmission env then
    match ← parsed source with
    | .error fault => return .error fault
    | .ok expr => evaluateExpr env raw expr
  else return .ok .absent

def evaluateSafe (env : Surroundings) (raw : RawContext) (source : String) :
    StateM Engine Outcome := do
  return .ofResult (← evaluate env raw source)

def freshUid (env : Surroundings) : StateM Engine String := fun engine =>
  ((env.uid engine.drawn).text, { engine with drawn := engine.drawn + 1 })

/-- What a template shows for the result of an evaluation: nothing for
absent, null and faults. -/
def shown : Except Fault Value → String
  | .ok value => if value.isNullish then "" else value.display
  | .error _ => ""

/-- What stands in the place of a placeholder. -/
def substitute (env : Surroundings) (raw : RawContext) (inner : List Char) :
    StateM Engine String := do
  let source := trim inner
  if source = "__uid".toList then freshUid env
  else return shown (← evaluate env raw (String.ofList source))

/-- Fills the pieces of a template, of whose placeholders `room` more are evaluated.
Later ones are left out. -/
def fill (env : Surroundings) (raw : RawContext) :
    Nat → List Piece → StateM Engine (List Char)
  | _, [] => return []
  | room, .verbatim c :: pieces => do
    let rest ← fill env raw room pieces
    return c :: rest
  | 0, .placeholder _ :: pieces => fill env raw 0 pieces
  | room + 1, .placeholder inner :: pieces => do
    let text ← substitute env raw inner
    let rest ← fill env raw room pieces
    return text.toList ++ rest

/-- Fills a template. One that is too long is cut first. What is filled in is not looked at
again. -/
def interpolate (env : Surroundings) (raw : RawContext) (template : String) :
    StateM Engine String := do
  let settings := (← get).settings
  let pieces := Template.pieces (template.toList.take settings.maxTemplateLength)
  return String.ofList (← fill env raw settings.maxSubstitutions pieces)

def stats (engine : Engine) : Recency.Stats :=
  engine.cache.stats

/-- Forgets the parsed expressions. -/
def clearCache : StateM Engine Unit := fun engine =>
  ((), { engine with cache := engine.cache.clear })

end Engine

end GuardedExpr
