import GuardedExpr.Proofs.Engine.Actions
import GuardedExpr.Proofs.Expr.Reuse
import GuardedExpr.Proofs.Recency.Basic

/-!
# The cache does not show

Each expression in the cache of an engine is what its source parses to under the
limits of the engine. So an evaluation gives what it would give without a cache,
whatever happened before.
-/

namespace GuardedExpr

/-- What a source comes to without a cache, behind earlier reads, and the reads
with those made for it. -/
def Settings.fresh (settings : Settings) (world : World) (raw : RawContext)
    (source : String) :
    ReadM (Except Fault Value) :=
  match parseSource source ⟨settings.maxExpressionLength, settings.maxTokens⟩ with
  | .error fault => return .error fault
  | .ok expr => Scope.evalAnew ⟨world, sanitize raw, settings.maxEvalDepth⟩ expr

/-- A host that does not remember reads makes no difference between evaluations. -/
theorem Settings.fresh_of_steady {world : World} (steady : world.Steady)
    (settings : Settings) (raw : RawContext) (source : String) (reads : List Read) :
    (settings.fresh world raw source reads).1 = (settings.fresh world raw source []).1 := by
  rw [fresh]
  cases parseSource source ⟨settings.maxExpressionLength, settings.maxTokens⟩ with
  | error fault => rfl
  | ok expr => exact Scope.evalAnew_of_steady _ steady expr reads []

namespace Engine

/-- Whether the next evaluation is admitted. -/
def admits (env : Surroundings) (engine : Engine) : Bool :=
  (engine.admission.request (env.clock engine.looks)).1

/-- What is cached under a source is the expression that the source is. -/
def CacheSound (engine : Engine) : Prop :=
  ∀ entry ∈ engine.cache.entries, parseSource entry.1 engine.sourceLimits = .ok entry.2

variable {env : Surroundings} {engine : Engine}

theorem cacheSound_ofSettings (settings : Settings) : (ofSettings settings).CacheSound := by
  intro entry h
  cases h

/-! ## Parsing through the cache -/

theorem settings_parsed (source : String) :
    (parsed source engine).2.settings = engine.settings := by
  rw [parsed]
  split
  · rfl
  · split <;> rfl

theorem reads_parsed (source : String) : (parsed source engine).2.reads = engine.reads := by
  rw [parsed]
  split
  · rfl
  · split <;> rfl

theorem parsed_fst (h : engine.CacheSound) (source : String) :
    (parsed source engine).1 = parseSource source engine.sourceLimits := by
  rw [parsed]
  split
  case h_1 expr cache found =>
    have hit : engine.cache.entries.lookup source = some expr := by
      rw [← Recency.get_fst, found]
    exact (h _ (Entries.mem_of_lookup hit)).symm
  case h_2 cache missed =>
    split
    case h_1 fault failed => exact failed.symm
    case h_2 expr succeeded => exact succeeded.symm

theorem cacheSound_parsed (h : engine.CacheSound) (source : String) :
    (parsed source engine).2.CacheSound := by
  have reordered : ∀ entry ∈ (engine.cache.get source).2.entries,
      parseSource entry.1 engine.sourceLimits = .ok entry.2 :=
    fun entry hentry => h entry (Recency.mem_of_mem_get hentry)
  rw [parsed]
  split
  case h_1 expr cache found =>
    rw [found] at reordered
    exact reordered
  case h_2 cache missed =>
    rw [missed] at reordered
    split
    case h_1 fault failed => exact reordered
    case h_2 expr succeeded =>
      intro entry hentry
      rcases Recency.eq_or_mem_of_mem_put hentry with rfl | kept
      · exact succeeded
      · exact reordered entry kept

/-! ## One evaluation -/

theorem evaluate_of_refused (h : engine.admits env = false) (raw : RawContext)
    (source : String) :
    evaluate env raw source engine = (.ok .absent, (requestAdmission env engine).2) := by
  have refused : ¬ (requestAdmission env engine).1 = true := by
    rw [show (requestAdmission env engine).1 = false from h]
    exact Bool.false_ne_true
  show (if (requestAdmission env engine).1 = true then _ else _ : StateM Engine _) _ = _
  rw [if_neg refused]
  rfl

theorem evaluate_of_admitted (h : engine.admits env = true) (raw : RawContext)
    (source : String) :
    evaluate env raw source engine =
      let (parsing, next) := parsed source (requestAdmission env engine).2
      match parsing with
      | .error fault => (.error fault, next)
      | .ok expr => evaluateExpr env raw expr next := by
  have admitted : (requestAdmission env engine).1 = true := h
  show (if (requestAdmission env engine).1 = true then _ else _ : StateM Engine _) _ = _
  rw [if_pos admitted]
  show (match (parsed source (requestAdmission env engine).2).1 with
    | .error fault => _
    | .ok expr => _ : StateM Engine _) (parsed source (requestAdmission env engine).2).2 = _
  rcases parsed source (requestAdmission env engine).2 with ⟨_ | expr, next⟩
  · rfl
  · rfl

/-- Parsing through the cache and reading host objects is all that an admitted
evaluation does to the engine. -/
theorem exists_reads_of_admitted (h : engine.admits env = true) (raw : RawContext)
    (source : String) :
    ∃ reads, (evaluate env raw source engine).2 =
      { (parsed source (requestAdmission env engine).2).2 with reads } := by
  rw [evaluate_of_admitted h]
  rcases parsed source (requestAdmission env engine).2 with ⟨fault | expr, next⟩
  · exact ⟨next.reads, rfl⟩
  · exact ⟨(evaluateExpr env raw expr next).2.reads, rfl⟩

theorem settings_evaluate (raw : RawContext) (source : String) :
    (evaluate env raw source engine).2.settings = engine.settings := by
  cases h : engine.admits env with
  | false =>
    rw [evaluate_of_refused h]
    rfl
  | true =>
    obtain ⟨reads, left⟩ := exists_reads_of_admitted h raw source
    rw [left]
    exact settings_parsed source

theorem cacheSound_evaluate (hsound : engine.CacheSound) (raw : RawContext)
    (source : String) :
    (evaluate env raw source engine).2.CacheSound := by
  cases h : engine.admits env with
  | false =>
    rw [evaluate_of_refused h]
    exact hsound
  | true =>
    have asked : (requestAdmission env engine).2.CacheSound := hsound
    obtain ⟨reads, left⟩ := exists_reads_of_admitted h raw source
    rw [left]
    exact cacheSound_parsed asked source

/-- With a sound cache, an admitted evaluation gives what it would without one, and
makes the same reads. -/
theorem evaluate_eq_fresh (hsound : engine.CacheSound) (h : engine.admits env = true)
    (raw : RawContext) (source : String) :
    ((evaluate env raw source engine).1, (evaluate env raw source engine).2.reads) =
      engine.settings.fresh env.world raw source engine.reads := by
  have asked : (requestAdmission env engine).2.CacheSound := hsound
  have parses := parsed_fst asked source
  have ceiling : (parsed source (requestAdmission env engine).2).2.settings =
      engine.settings :=
    settings_parsed source
  have reads : (parsed source (requestAdmission env engine).2).2.reads = engine.reads :=
    reads_parsed source
  have limits : (requestAdmission env engine).2.sourceLimits =
      ⟨engine.settings.maxExpressionLength, engine.settings.maxTokens⟩ := rfl
  rw [evaluate_of_admitted h, Settings.fresh, ← limits, ← parses, ← ceiling, ← reads]
  rcases parsed source (requestAdmission env engine).2 with ⟨fault | expr, next⟩
  · rfl
  · rfl

/-! ## Runs -/

theorem settings_perform (action : Action) (engine : Engine) :
    (perform env action engine).2.settings = engine.settings := by
  cases action with
  | evaluate raw source => exact settings_evaluate raw source
  | drawUid => rfl
  | clearCache => rfl
  | readStats => rfl

theorem cacheSound_perform (action : Action) (engine : Engine) (h : engine.CacheSound) :
    (perform env action engine).2.CacheSound := by
  cases action with
  | evaluate raw source => exact cacheSound_evaluate h raw source
  | drawUid => exact h
  | clearCache =>
    intro entry hentry
    cases hentry
  | readStats => exact h

/-- The engine has these settings and a sound cache. -/
structure Sound (settings : Settings) (engine : Engine) : Prop where
  settings_eq : engine.settings = settings
  cacheSound : engine.CacheSound

theorem sound_ofSettings (settings : Settings) : (ofSettings settings).Sound settings :=
  ⟨rfl, cacheSound_ofSettings settings⟩

theorem Sound.perform {settings : Settings} (action : Action) (engine : Engine)
    (h : engine.Sound settings) : (perform env action engine).2.Sound settings :=
  ⟨(settings_perform action engine).trans h.settings_eq,
    cacheSound_perform action engine h.cacheSound⟩

/-- In any run, a call concludes from the answers to its actions. Each evaluation
among these answers, if it is admitted, what it would without a cache, and makes the
same reads; of a host that does not remember reads, this is what it would answer as
the first of all. Otherwise it answers an absent value, with the cache, its counts and
the reads as they were. -/
theorem cache_invisible (env : Surroundings) (settings : Settings) (earlier : List Call)
    (call : Call) :
    let engine := afterCalls env earlier (ofSettings settings)
    let answers := (performAll env (call.actions settings) engine).1
    serve env call engine =
        (call.conclude settings answers, after env (call.actions settings) engine) ∧
      ∀ done raw source rest, call.actions settings = done ++ .evaluate raw source :: rest →
        let current := after env done engine
        let next := after env [.evaluate raw source] current
        (current.admits env = true →
          (∃ result, settings.fresh env.world raw source current.reads =
            (result, next.reads) ∧ answers[done.length]? = some (.result result)) ∧
          (env.world.Steady → answers[done.length]? =
            some (.result (settings.fresh env.world raw source []).1))) ∧
        (current.admits env = false → answers[done.length]? = some (.result (.ok .absent)) ∧
          next.cache = current.cache ∧ next.reads = current.reads) := by
  intro engine answers
  have hengine : engine.Sound settings :=
    afterCalls_preserves Sound.perform earlier (sound_ofSettings settings)
  constructor
  · rw [serve_eq, hengine.settings_eq]
  · intro done raw source rest split current next
    have answer :
        answers[done.length]? = some (.result (evaluate env raw source current).1) := by
      show (performAll env (call.actions settings) engine).1[done.length]? = _
      rw [split]
      exact getElem?_performAll done rest (.evaluate raw source) engine
    have hcurrent : current.Sound settings := after_preserves Sound.perform done hengine
    constructor
    · intro admitted
      have run := evaluate_eq_fresh hcurrent.cacheSound admitted raw source
      rw [hcurrent.settings_eq] at run
      refine ⟨⟨_, run.symm, answer⟩, fun steady => ?_⟩
      rw [answer, ← settings.fresh_of_steady steady raw source current.reads, ← run]
    · intro refused
      have left : next = (evaluate env raw source current).2 := rfl
      rw [answer, left, evaluate_of_refused refused]
      exact ⟨rfl, rfl, rfl⟩

/-- The clock stands still, and there are no objects. -/
def still : Surroundings where
  clock _ := 0
  uid _ := 0
  world := { get := fun _ _ _ => none, keys := fun _ => [] }

-- Of two admissions the first is spent before the template, the second on its first
-- placeholder, which finds its source in the cache.
theorem cache_invisible_still :
    let settings : Settings := { rateLimit := 2 }
    let engine := afterCalls still [.evaluate [] "x"] (ofSettings settings)
    let next := after still [.evaluate [] "x"] engine
    let template := "\x7b\x7bx\x7d\x7d \x7b\x7bx\x7d\x7d"
    let answers :=
      (performAll still ((Call.interpolate [] template).actions settings) engine).1
    engine.admits still = true ∧ still.world.Steady ∧
      answers[0]? = some (.result (settings.fresh still.world [] "x" []).1) ∧
      next.admits still = false ∧
      answers[1]? = some (.result (.ok .absent)) ∧
      (after still [.evaluate [] "x"] next).cache = next.cache := by
  have run := cache_invisible still { rateLimit := 2 } [.evaluate [] "x"]
    (.interpolate [] "\x7b\x7bx\x7d\x7d \x7b\x7bx\x7d\x7d")
  have steady : still.world.Steady := fun _ _ _ _ _ => ⟨rfl, trivial⟩
  have first := ((run.2 [] [] "x" [.evaluate [] "x"] rfl).1 (by decide)).2 steady
  have second := (run.2 [.evaluate [] "x"] [] "x" [] rfl).2 (by decide)
  exact ⟨by decide, steady, first, by decide, second.1, second.2.1⟩

-- At the second placeholder the host remembers the read of the first.
example :
    let world : World :=
      ⟨fun reads _ _ => some (.text (if reads = [] then "shut" else "open")), fun _ => []⟩
    (interpolate { still with world } [("box", .object ⟨0⟩)]
        "\x7b\x7bbox.lid\x7d\x7d, \x7b\x7bbox.lid\x7d\x7d" (ofSettings {})).1 =
      "shut, open" := by
  decide +kernel

end Engine

end GuardedExpr
