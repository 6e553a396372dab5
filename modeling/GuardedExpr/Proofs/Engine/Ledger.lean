import GuardedExpr.Proofs.Admission.Run
import GuardedExpr.Proofs.Engine.Evaluations
import GuardedExpr.Proofs.Recency.Recent

/-!
# The books of an engine

The counts of an engine agree with the evaluations of its run. Each admitted evaluation
is one hit or one miss of the cache, and a miss whose source parses brings one new
entry, which is there still, was evicted, or was dropped by a clear. As long as no
admission expires the limiter admits the evaluations up to its limit, in whatever calls
they come, and no other ones.
-/

namespace GuardedExpr.Engine

variable {env : Surroundings} {settings : Settings} {engine : Engine}

/-! ## The counts of the cache -/

/-- The engine has these settings and a sound cache, which requests have left behind. -/
structure Kept (settings : Settings) (engine : Engine) :
    Prop extends Sound settings engine where
  stored : ∃ requests, engine.cache = Recency.after settings.cacheCapacity requests

theorem kept_ofSettings (settings : Settings) : (ofSettings settings).Kept settings :=
  ⟨sound_ofSettings settings, [], rfl⟩

/-- All that parsing through the cache can do to it. -/
theorem cache_parsed_cases (source : String) (engine : Engine) :
    (engine.cache.contains source = true ∧
      (parsed source engine).2.cache = (engine.cache.get source).2) ∨
    (engine.cache.contains source = false ∧
      (parseSource source engine.sourceLimits).isOk = false ∧
      (parsed source engine).2.cache = (engine.cache.get source).2) ∨
    (engine.cache.contains source = false ∧
      (parseSource source engine.sourceLimits).isOk = true ∧
      ∃ expr, (parsed source engine).2.cache =
        (engine.cache.get source).2.put source expr) := by
  have asked : (engine.cache.get source).1.isSome = engine.cache.contains source :=
    Recency.isSome_get_fst
  rw [parsed]
  rcases found : engine.cache.get source with ⟨_ | expr, cache⟩
  · rw [found] at asked
    cases parsing : parseSource source engine.sourceLimits with
    | error fault => exact .inr (.inl ⟨asked.symm, rfl, rfl⟩)
    | ok expr => exact .inr (.inr ⟨asked.symm, rfl, expr, rfl⟩)
  · rw [found] at asked
    exact .inl ⟨asked.symm, rfl⟩

namespace Kept

theorem nodup (h : engine.Kept settings) : engine.cache.ranking.Nodup := by
  obtain ⟨requests, eq⟩ := h.stored
  rw [eq]
  exact Recency.nodup_ranking_after _ _

theorem capacity (h : engine.Kept settings) :
    engine.cache.capacity = settings.cacheCapacity := by
  obtain ⟨requests, eq⟩ := h.stored
  rw [eq, Recency.capacity_after]

theorem size_le (h : engine.Kept settings) : engine.cache.size ≤ settings.cacheCapacity := by
  obtain ⟨requests, eq⟩ := h.stored
  rw [eq]
  exact Recency.size_after_le _ _

theorem limits (h : engine.Kept settings) :
    engine.sourceLimits = (ofSettings settings).sourceLimits := by
  rw [sourceLimits, h.settings_eq]
  rfl

/-- Only sources that parse are in the cache. -/
theorem isOk_of_contains (h : engine.Kept settings) {source : String}
    (present : engine.cache.contains source = true) :
    (parseSource source (ofSettings settings).sourceLimits).isOk = true := by
  obtain ⟨expr, found⟩ := Option.isSome_iff_exists.1 present
  rw [← h.limits, h.cacheSound _ (Entries.mem_of_lookup found)]
  rfl

theorem parsed (h : engine.Kept settings) (source : String) :
    (Engine.parsed source engine).2.Kept settings := by
  obtain ⟨requests, eq⟩ := h.stored
  refine ⟨⟨(settings_parsed source).trans h.settings_eq,
    cacheSound_parsed h.cacheSound source⟩, ?_⟩
  rcases cache_parsed_cases source engine with ⟨-, next⟩ | ⟨-, -, next⟩ | ⟨-, -, expr, next⟩
  · exact ⟨.get source :: requests, by rw [next, eq]; rfl⟩
  · exact ⟨.get source :: requests, by rw [next, eq]; rfl⟩
  · exact ⟨.put source expr :: .get source :: requests, by rw [next, eq]; rfl⟩

/-- Parsing through the cache counts one hit or one miss, and brings a new entry if a
source was missed that parses. -/
theorem counts_parsed (h : engine.Kept settings) (source : String) :
    let next := (Engine.parsed source engine).2.cache
    let present := engine.cache.contains source
    let parses := (parseSource source (ofSettings settings).sourceLimits).isOk
    next.stats.hits = engine.cache.stats.hits + (if present then 1 else 0) ∧
      next.stats.misses = engine.cache.stats.misses + (if !present then 1 else 0) ∧
      (0 < settings.cacheCapacity → next.size + next.stats.evictions =
        engine.cache.size + engine.cache.stats.evictions +
          if !present && parses then 1 else 0) := by
  intro next present parses
  have looked : (engine.cache.get source).2.size = engine.cache.size :=
    Recency.size_get h.nodup
  rcases cache_parsed_cases source engine with
    ⟨found, eq⟩ | ⟨missed, fails, eq⟩ | ⟨missed, parsed, expr, eq⟩
  · have step : next = (engine.cache.get source).2 := eq
    have here : present = true := found
    rw [step, here, Recency.hits_get, Recency.misses_get, found, looked,
      Recency.evictions_get]
    exact ⟨rfl, rfl, fun _ => rfl⟩
  · have step : next = (engine.cache.get source).2 := eq
    have here : present = false := missed
    have unparsed : parses = false := by
      rw [h.limits] at fails
      exact fails
    rw [step, here, unparsed, Recency.hits_get, Recency.misses_get, missed, looked,
      Recency.evictions_get]
    exact ⟨rfl, rfl, fun _ => rfl⟩
  · have step : next = (engine.cache.get source).2.put source expr := eq
    have here : present = false := missed
    have readable : parses = true := by
      rw [h.limits] at parsed
      exact parsed
    rw [step, here, readable, Recency.hits_put, Recency.misses_put, Recency.hits_get,
      Recency.misses_get, missed]
    refine ⟨rfl, rfl, fun positive => ?_⟩
    exact Recency.size_add_evictions_put_get h.nodup (by rwa [h.capacity]) missed

end Kept

/-- How many entries an action drops. -/
def drops (engine : Engine) : Action → Nat
  | .clearCache => engine.cache.size
  | _ => 0

/-- How many entries the clears of a run drop. -/
def dropped (env : Surroundings) : List Action → Engine → Nat
  | [], _ => 0
  | action :: actions, engine =>
    engine.drops action + dropped env actions (perform env action engine).2

/-- The engine `next` counts what `engine` counts and these evaluations, if `lost` entries
were dropped in between. -/
structure Counts (settings : Settings) (evaluations : List Evaluation) (lost : Nat)
    (engine next : Engine) : Prop where
  hits :
      next.cache.stats.hits = engine.cache.stats.hits + evaluations.countP Evaluation.isHit
  misses : next.cache.stats.misses =
    engine.cache.stats.misses + evaluations.countP Evaluation.isMiss
  entries : 0 < settings.cacheCapacity →
    next.cache.size + next.cache.stats.evictions + lost =
    engine.cache.size + engine.cache.stats.evictions +
      evaluations.countP fun evaluation =>
        evaluation.isMiss && evaluation.parses (ofSettings settings).sourceLimits

theorem Counts.of_cache_eq {next : Engine} (h : next.cache = engine.cache) :
    Counts settings [] 0 engine next := by
  refine ⟨?_, ?_, fun _ => ?_⟩ <;> rw [h] <;> rfl

theorem Counts.trans {evaluations more : List Evaluation} {lost further : Nat}
    {engine between next : Engine} (first : Counts settings evaluations lost engine between)
    (second : Counts settings more further between next) :
    Counts settings (evaluations ++ more) (lost + further) engine next := by
  refine ⟨?_, ?_, fun positive => ?_⟩
  · rw [second.hits, first.hits, List.countP_append, Nat.add_assoc]
  · rw [second.misses, first.misses, List.countP_append, Nat.add_assoc]
  · have earlier := first.entries positive
    have later := second.entries positive
    rw [List.countP_append]
    omega

theorem isHit_evaluation (raw : RawContext) (source : String) :
    (engine.evaluation env raw source).isHit =
      (engine.admits env && engine.cache.contains source) := rfl

theorem isMiss_evaluation (raw : RawContext) (source : String) :
    (engine.evaluation env raw source).isMiss =
      (engine.admits env && !engine.cache.contains source) := rfl

/-- A source that does not parse is never found. -/
theorem Kept.isMiss_of_parses_eq_false (h : engine.Kept settings) {raw : RawContext}
    {source : String} (admitted : engine.admits env = true)
    (fails : (engine.evaluation env raw source).parses (ofSettings settings).sourceLimits =
      false) :
    (engine.evaluation env raw source).isMiss = true := by
  have missed : engine.cache.contains source = false := by
    apply Bool.eq_false_iff.2
    intro present
    have parses := h.isOk_of_contains present
    rw [Evaluation.parses] at fails
    exact Bool.false_ne_true (fails.symm.trans parses)
  rw [isMiss_evaluation, admitted, missed]
  rfl

/-- An evaluation that is admitted parses through the cache. One that is refused
leaves the cache alone. -/
theorem Kept.evaluate (h : engine.Kept settings) (raw : RawContext) (source : String) :
    (Engine.evaluate env raw source engine).2.Kept settings ∧
      Counts settings [engine.evaluation env raw source] 0 engine
        (Engine.evaluate env raw source engine).2 := by
  have asked : (requestAdmission env engine).2.Kept settings :=
    ⟨⟨h.settings_eq, h.cacheSound⟩, h.stored⟩
  cases admission : engine.admits env with
  | false =>
    rw [evaluate_of_refused admission]
    refine ⟨asked, ?_, ?_, fun _ => ?_⟩
    · rw [List.countP_singleton, isHit_evaluation, admission]
      rfl
    · rw [List.countP_singleton, isMiss_evaluation, admission]
      rfl
    · rw [List.countP_singleton, isMiss_evaluation, admission]
      rfl
  | true =>
    obtain ⟨hits, misses, entries⟩ := asked.counts_parsed source
    obtain ⟨reads, left⟩ := exists_reads_of_admitted admission raw source
    have parsed := asked.parsed source
    rw [left]
    refine ⟨⟨⟨parsed.settings_eq, parsed.cacheSound⟩, parsed.stored⟩, ?_, ?_,
      fun positive => ?_⟩
    · rw [List.countP_singleton, isHit_evaluation, admission, Bool.true_and]
      exact hits
    · rw [List.countP_singleton, isMiss_evaluation, admission, Bool.true_and]
      exact misses
    · rw [List.countP_singleton, isMiss_evaluation, admission, Bool.true_and]
      exact entries positive

theorem Kept.perform (h : engine.Kept settings) (action : Action) :
    (Engine.perform env action engine).2.Kept settings ∧
      Counts settings (engine.evaluation? env action).toList (engine.drops action) engine
        (Engine.perform env action engine).2 := by
  cases action with
  | evaluate raw source => exact h.evaluate raw source
  | drawUid => exact ⟨⟨⟨h.settings_eq, h.cacheSound⟩, h.stored⟩, .of_cache_eq rfl⟩
  | readStats => exact ⟨h, .of_cache_eq rfl⟩
  | clearCache =>
    obtain ⟨requests, eq⟩ := h.stored
    refine ⟨⟨⟨h.settings_eq, nofun⟩, .clear :: requests, ?_⟩, rfl, rfl, fun _ => ?_⟩
    · show engine.cache.clear = _
      rw [eq]
      rfl
    · show 0 + engine.cache.stats.evictions + engine.cache.size =
        engine.cache.size + engine.cache.stats.evictions + 0
      omega

/-- A run counts the evaluations that it makes. -/
theorem Kept.after (h : engine.Kept settings) (actions : List Action) :
    (Engine.after env actions engine).Kept settings ∧
      Counts settings (evaluations env actions engine) (dropped env actions engine) engine
        (Engine.after env actions engine) := by
  induction actions generalizing engine with
  | nil => exact ⟨h, .of_cache_eq rfl⟩
  | cons action actions ih =>
    obtain ⟨kept, counted⟩ := @Kept.perform env settings engine h action
    obtain ⟨final, further⟩ := ih kept
    exact ⟨final, counted.trans further⟩

/-! ## The budget of the limiter -/

/-- No admission has expired when a later evaluation asks for one. -/
def Lasting (window : Nat) (log : List Evaluation) : Prop :=
  log.Pairwise fun earlier later =>
    earlier.admitted = true → later.instant - earlier.instant < window

theorem admission_parsed (source : String) (engine : Engine) :
    (parsed source engine).2.admission = engine.admission := by
  rw [parsed]
  split
  · rfl
  · split <;> rfl

theorem admission_evaluate (raw : RawContext) (source : String) (engine : Engine) :
    (evaluate env raw source engine).2.admission =
      (engine.admission.request (env.clock engine.looks)).2 := by
  cases h : engine.admits env with
  | false =>
    rw [evaluate_of_refused h]
    rfl
  | true =>
    obtain ⟨reads, left⟩ := exists_reads_of_admitted h raw source
    rw [left]
    exact admission_parsed source _

/-- These evaluations were all, and the limiter still counts those of them that were
admitted: as many as its limit allows. -/
structure Spent (settings : Settings) (past : List Evaluation) (engine : Engine) : Prop where
  limit : engine.admission.limit = settings.rateLimit
  window : engine.admission.window = settings.rateWindow
  queue :
      engine.admission.admitted = (past.filter Evaluation.admitted).map Evaluation.instant
  amount : engine.admission.admitted.length = min settings.rateLimit past.length

theorem spent_ofSettings (settings : Settings) : (ofSettings settings).Spent settings [] :=
  ⟨rfl, rfl, rfl, (Nat.min_zero _).symm⟩

namespace Spent

variable {past : List Evaluation}

theorem expire_eq_self (h : engine.Spent settings past) {now : Nat}
    (lasting : ∀ earlier ∈ past, earlier.admitted = true →
      now - earlier.instant < settings.rateWindow) :
    engine.admission.expire now = engine.admission := by
  apply Admission.expire_eq_self
  intro instant waiting
  rw [h.queue] at waiting
  obtain ⟨earlier, kept, rfl⟩ := List.mem_map.1 waiting
  obtain ⟨member, admitted⟩ := List.mem_filter.1 kept
  rw [h.window]
  exact lasting earlier member admitted

/-- An evaluation is admitted as long as the limit is not spent. -/
theorem admits_iff (h : engine.Spent settings past)
    (lasting : ∀ earlier ∈ past, earlier.admitted = true →
      env.clock engine.looks - earlier.instant < settings.rateWindow) :
    engine.admits env = true ↔ past.length < settings.rateLimit := by
  rw [admits, Admission.request_fst, h.expire_eq_self lasting, h.amount, h.limit,
    decide_eq_true_eq]
  omega

theorem evaluate (h : engine.Spent settings past) (raw : RawContext) (source : String)
    (lasting : ∀ earlier ∈ past, earlier.admitted = true →
      env.clock engine.looks - earlier.instant < settings.rateWindow) :
    (Engine.evaluate env raw source engine).2.Spent settings
      (past ++ [engine.evaluation env raw source]) := by
  have admission := @admission_evaluate env raw source engine
  have itself : ([engine.evaluation env raw source].filter Evaluation.admitted).map
      Evaluation.instant = if engine.admits env then [env.clock engine.looks] else [] := by
    cases admitted : engine.admits env <;> simp [evaluation, admitted]
  have queue : (Engine.evaluate env raw source engine).2.admission.admitted =
      engine.admission.admitted ++
        if engine.admits env then [env.clock engine.looks] else [] := by
    rw [admission, Admission.admitted_request, h.expire_eq_self lasting]
    rfl
  refine ⟨?_, ?_, ?_, ?_⟩
  · rw [admission, Admission.limit_request, h.limit]
  · rw [admission, Admission.window_request, h.window]
  · rw [queue, h.queue, List.filter_append, List.map_append, itself]
  · rw [queue, List.length_append, List.length_append, h.amount]
    cases admitted : engine.admits env with
    | true =>
      have room : past.length < settings.rateLimit := (h.admits_iff lasting).1 admitted
      show min settings.rateLimit past.length + 1 = min settings.rateLimit (past.length + 1)
      omega
    | false =>
      have full : ¬ past.length < settings.rateLimit := by
        rw [← h.admits_iff lasting, admitted]
        exact Bool.false_ne_true
      show min settings.rateLimit past.length + 0 = min settings.rateLimit (past.length + 1)
      omega

/-- The evaluations that are admitted are those that the limit has room for. -/
theorem admitted_iff (h : engine.Spent settings past) (actions : List Action)
    (lasting : Lasting settings.rateWindow (past ++ evaluations env actions engine))
    {i : Nat} {evaluation : Evaluation}
    (place : (evaluations env actions engine)[i]? = some evaluation) :
    evaluation.admitted = true ↔ past.length + i < settings.rateLimit := by
  -- Each evaluation that is made joins the past, so the number of all those in front
  -- of one stays the same.
  induction actions generalizing engine past i with
  | nil => cases place
  | cons action actions ih =>
    cases action with
    | evaluate raw source =>
      have split : evaluations env (.evaluate raw source :: actions) engine =
          engine.evaluation env raw source ::
            evaluations env actions (Engine.evaluate env raw source engine).2 := rfl
      rw [split] at lasting place
      have now : ∀ earlier ∈ past, earlier.admitted = true →
          env.clock engine.looks - earlier.instant < settings.rateWindow :=
        fun earlier member =>
          (List.pairwise_append.1 lasting).2.2 earlier member _ List.mem_cons_self
      cases i with
      | zero =>
        obtain rfl := Option.some.inj place
        exact h.admits_iff now
      | succ i =>
        have next := ih (h.evaluate raw source now)
          (by rwa [List.append_assoc, List.singleton_append]) place
        rw [next, List.length_append, List.length_singleton]
        omega
    | drawUid =>
      have next : (Engine.perform env .drawUid engine).2.Spent settings past :=
        ⟨h.limit, h.window, h.queue, h.amount⟩
      exact ih next lasting place
    | clearCache =>
      have next : (Engine.perform env .clearCache engine).2.Spent settings past :=
        ⟨h.limit, h.window, h.queue, h.amount⟩
      exact ih next lasting place
    | readStats => exact ih h lasting place

end Spent

/-! ## The books -/

/-- An admitted evaluation is a hit or a miss. -/
theorem countP_isHit_add_countP_isMiss (log : List Evaluation) :
    log.countP Evaluation.isHit + log.countP Evaluation.isMiss =
      log.countP Evaluation.admitted := by
  induction log with
  | nil => rfl
  | cons evaluation log ih =>
    rw [List.countP_cons, List.countP_cons, List.countP_cons, ← ih, Evaluation.isHit,
      Evaluation.isMiss]
    cases evaluation.admitted <;> cases evaluation.cached <;> simp <;> omega

/-- Every evaluation of a run is one for an engine that the run comes to. -/
theorem exists_of_mem_evaluations (h : engine.Kept settings) {actions : List Action}
    {evaluation : Evaluation} (member : evaluation ∈ evaluations env actions engine) :
    ∃ (current : Engine) (raw : RawContext) (source : String),
      current.Kept settings ∧ evaluation = current.evaluation env raw source := by
  induction actions generalizing engine with
  | nil => cases member
  | cons action actions ih =>
    rcases List.mem_append.1 member with here | later
    · cases action with
      | evaluate raw source => exact ⟨engine, raw, source, h, List.mem_singleton.1 here⟩
      | _ => cases here
    · exact ih (h.perform action).1 later

/-- An evaluation is at its place in the list of all those of a run, and comes out in the
answer of its call as what it gave. -/
theorem getElem?_evaluations_of_call (before later : List Call) {call : Call}
    {done rest : List Action} {raw : RawContext} {source : String}
    (split : call.actions settings = done ++ .evaluate raw source :: rest) :
    let start := ofSettings settings
    let answers := (performAll env (call.actions settings) (afterCalls env before start)).1
    ∃ evaluation,
      (evaluations env ((before ++ call :: later).flatMap (Call.actions settings)) start)[
          (before.flatMap (Call.sources settings)).length +
            (done.filterMap Action.source?).length]? = some evaluation ∧
        answers[done.length]? = some (.result evaluation.result) := by
  intro start answers
  let earlier := before.flatMap (Call.actions settings)
  have actions : (before ++ call :: later).flatMap (Call.actions settings) =
      (earlier ++ done) ++ .evaluate raw source ::
        (rest ++ later.flatMap (Call.actions settings)) := by
    rw [List.flatMap_append, List.flatMap_cons, split]
    simp [earlier]
  have index : (before.flatMap (Call.sources settings)).length +
      (done.filterMap Action.source?).length =
        ((earlier ++ done).filterMap Action.source?).length := by
    rw [List.filterMap_append, List.length_append, filterMap_source?_flatMap_actions]
  have same : afterCalls env before start = after env earlier start :=
    afterCalls_eq rfl before
  refine ⟨(after env (earlier ++ done) start).evaluation env raw source, ?_, ?_⟩
  · rw [actions, index]
    exact getElem?_evaluations _ _ raw source start
  · show (performAll env (call.actions settings) (afterCalls env before start)).1[_]? = _
    rw [split, getElem?_performAll, same, ← after_append]
    rfl

/-- The books of an engine balance. Its evaluations are one for each direct call, and one
for each placeholder of a template that is filled and is no fresh id; each answers its
call. Every admitted one is a hit or a miss, and a miss whenever its source does not parse.
The misses that parse have brought the entries that are present, were evicted or were
dropped by clears. As long as no admission expires the first evaluations are admitted, as
many as the limit says. A refused one gives nothing. -/
theorem evaluations_accounted (env : Surroundings) (settings : Settings)
    (calls : List Call) :
    let start := ofSettings settings
    let actions := calls.flatMap (Call.actions settings)
    let log := evaluations env actions start
    let store := (afterCalls env calls start).cache
    log.map Evaluation.source = calls.flatMap (Call.sources settings) ∧
      (∀ before call later, calls = before ++ call :: later →
        let here := afterCalls env before start
        let answers := (performAll env (call.actions settings) here).1
        (serve env call here).1 = call.conclude settings answers ∧
          ∀ done raw source rest, call.actions settings =
            done ++ .evaluate raw source :: rest →
            ∃ evaluation, log[(before.flatMap (Call.sources settings)).length +
                (done.filterMap Action.source?).length]? = some evaluation ∧
              answers[done.length]? = some (.result evaluation.result)) ∧
      store.stats.hits + store.stats.misses = log.countP Evaluation.admitted ∧
      store.stats.hits = log.countP Evaluation.isHit ∧
      store.stats.misses = log.countP Evaluation.isMiss ∧
      (∀ evaluation ∈ log, evaluation.admitted = true →
        evaluation.parses start.sourceLimits = false → evaluation.isMiss = true) ∧
      store.size ≤ settings.cacheCapacity ∧
      (0 < settings.cacheCapacity →
        log.countP (fun evaluation =>
          evaluation.isMiss && evaluation.parses start.sourceLimits) =
          store.size + store.stats.evictions + dropped env actions start) ∧
      (Lasting settings.rateWindow log → ∀ i evaluation, log[i]? = some evaluation →
        (evaluation.admitted = true ↔ i < settings.rateLimit)) ∧
      ∀ evaluation ∈ log, evaluation.admitted = false →
        evaluation.result = .ok .absent ∧ shown evaluation.result = "" := by
  intro start actions log store
  have fresh : start.Kept settings := kept_ofSettings settings
  have final : afterCalls env calls start = after env actions start :=
    afterCalls_eq rfl calls
  obtain ⟨kept, counted⟩ := @Kept.after env settings start fresh actions
  rw [← final] at kept counted
  have hits : store.stats.hits = log.countP Evaluation.isHit :=
    counted.hits.trans (Nat.zero_add _)
  have misses : store.stats.misses = log.countP Evaluation.isMiss :=
    counted.misses.trans (Nat.zero_add _)
  refine ⟨?_, ?_, ?_, hits, misses, ?_, kept.size_le, ?_, ?_, ?_⟩
  · exact (map_source_evaluations actions start).trans
      (filterMap_source?_flatMap_actions settings calls)
  · rintro before call later rfl here answers
    have settled : here.Sound settings :=
      afterCalls_preserves Sound.perform before (sound_ofSettings settings)
    refine ⟨?_, fun done raw source rest split =>
      getElem?_evaluations_of_call before later split⟩
    rw [serve_eq, settled.settings_eq]
  · rw [hits, misses, countP_isHit_add_countP_isMiss]
  · intro evaluation member admitted fails
    obtain ⟨current, raw, source, held, rfl⟩ := exists_of_mem_evaluations fresh member
    exact held.isMiss_of_parses_eq_false admitted fails
  · intro positive
    have entries := counted.entries positive
    rw [← Nat.zero_add (List.countP _ log)]
    exact entries.symm
  · intro lasting i evaluation place
    have admitted := (spent_ofSettings settings).admitted_iff actions lasting place
    rwa [List.length_nil, Nat.zero_add] at admitted
  · intro evaluation member refused
    obtain ⟨current, raw, source, -, rfl⟩ := exists_of_mem_evaluations fresh member
    have nothing : (current.evaluation env raw source).result = .ok .absent :=
      congrArg Prod.fst (evaluate_of_refused refused raw source)
    rw [nothing]
    exact ⟨rfl, rfl⟩

-- The last placeholder is one evaluation too many. What the others brought into the cache
-- for one entry is there or was evicted.
theorem evaluations_accounted_still :
    let settings : Settings := { rateLimit := 2, cacheCapacity := 1 }
    let calls : List Call := [.evaluate [] "x",
      .interpolate [] "\x7b\x7b y \x7d\x7d\x7b\x7b__uid\x7d\x7d\x7b\x7bx\x7d\x7d"]
    let log :=
      evaluations still (calls.flatMap (Call.actions settings)) (ofSettings settings)
    let store := (afterCalls still calls (ofSettings settings)).cache
    log.map Evaluation.source = ["x", "y", "x"] ∧ Lasting settings.rateWindow log ∧
      store.stats.hits + store.stats.misses = 2 ∧
      (∃ evaluation, log[2]? = some evaluation ∧ evaluation.admitted = false ∧
        evaluation.result = .ok .absent) ∧
      store.size + store.stats.evictions = 2 := by
  intro settings calls log store
  obtain ⟨sources, -, admitted, -, -, -, -, entries, budget, nothing⟩ :=
    evaluations_accounted still settings calls
  have now : ∀ evaluation ∈ log, evaluation.instant = 0 := by
    intro evaluation member
    obtain ⟨current, raw, source, -, rfl⟩ :=
      exists_of_mem_evaluations (kept_ofSettings settings) member
    rfl
  have lasting : Lasting settings.rateWindow log := by
    apply List.pairwise_of_forall_mem_list
    intro earlier _ later hlater _
    rw [now later hlater, Nat.zero_sub]
    exact Nat.succ_pos _
  have named : log.map Evaluation.source = ["x", "y", "x"] := sources.trans (by decide)
  have length : log.length = 3 := by
    rw [← List.length_map Evaluation.source, named]
    rfl
  have counted : log.countP Evaluation.admitted = 2 := by decide +kernel
  have brought : (log.countP fun evaluation =>
      evaluation.isMiss && evaluation.parses (ofSettings settings).sourceLimits) = 2 := by
    decide +kernel
  refine ⟨named, lasting, ?_, ?_, ?_⟩
  · rw [admitted, counted]
  · have third : log[2]? = some log[2] := List.getElem?_eq_getElem (by rw [length]; decide)
    have refused : log[2].admitted = false := by
      rw [← Bool.not_eq_true, budget lasting 2 _ third]
      decide
    exact ⟨log[2], third, refused, (nothing _ (List.getElem_mem _) refused).1⟩
  · have none : dropped still (calls.flatMap (Call.actions settings))
        (ofSettings settings) = 0 := by rfl
    have sum := entries (by decide)
    rw [brought, none, Nat.add_zero] at sum
    rw [← sum]

end GuardedExpr.Engine
