import GuardedExpr.Proofs.Engine.Cache
import GuardedExpr.Proofs.Template.Layout

/-!
# One pass over a template

Filling a template is a sequence of ordinary evaluations, one for each placeholder in turn.
The plain texts of its layout come out as they are, and what is filled in only stands
between them: it is no part of the text whose layout is taken.
-/

namespace GuardedExpr

open Template

theorem weave_map_verbatim_append (plain : List Char) (pieces : List Piece)
    (texts : List String) :
    weave (plain.map .verbatim ++ pieces) texts = plain ++ weave pieces texts := by
  induction plain with
  | nil => rfl
  | cons c plain ih => rw [List.map_cons, List.cons_append, weave, ih, List.cons_append]

/-- Placeholders for which there is no text are filled with nothing. -/
theorem weave_pieces (layout : Layout) (texts : List String) :
    weave layout.pieces texts = layout.filled fun i => (texts[i]?).getD "" := by
  induction layout generalizing texts with
  | last plain =>
    have all := weave_map_verbatim_append plain [] texts
    rw [List.append_nil] at all
    rw [Layout.pieces, all]
    exact List.append_nil plain
  | hole plain inner behind ih =>
    rw [Layout.pieces, weave_map_verbatim_append, Layout.filled, List.append_assoc]
    cases texts with
    | nil => exact congrArg (plain ++ ·) (ih [])
    | cons text texts =>
      rw [weave, ih]
      rfl

theorem filterMap_inner?_pieces (layout : Layout) :
    layout.pieces.filterMap Piece.inner? = layout.inners := by
  have plainly :
      ∀ plain : List Char, (plain.map Piece.verbatim).filterMap Piece.inner? = [] := by
    intro plain
    simp [List.filterMap_map, Function.comp_def, Piece.inner?]
  induction layout with
  | last plain => exact plainly plain
  | hole plain inner behind ih =>
    rw [Layout.pieces, List.filterMap_append, plainly, List.nil_append, List.filterMap_cons]
    exact congrArg (inner :: ·) ih

theorem fillings_pieces (raw : RawContext) (room : Nat) (layout : Layout) :
    fillings raw room layout.pieces = (layout.inners.take room).map (.filling raw) := by
  rw [fillings, filterMap_inner?_pieces]

/-- The text of a placeholder for a fresh id. -/
def uidMark : List Char := "__uid".toList

/-- The sources that placeholders have evaluated, in order. -/
def sources (inners : List (List Char)) : List String :=
  ((inners.map trim).filter (· ≠ uidMark)).map String.ofList

/-- How many fresh ids placeholders ask for. -/
def draws (inners : List (List Char)) : Nat :=
  (inners.map trim).count uidMark

theorem Action.filling_of_eq {inner : List Char} (h : trim inner = uidMark)
    (raw : RawContext) :
    filling raw inner = .drawUid :=
  if_pos h

theorem Action.filling_of_ne {inner : List Char} (h : trim inner ≠ uidMark)
    (raw : RawContext) :
    filling raw inner = .evaluate raw (String.ofList (trim inner)) :=
  if_neg h

namespace Engine

variable {env : Surroundings} {raw : RawContext}

/-- The engine that evaluations of sources, one after the other, leave behind. -/
def afterEvaluations (env : Surroundings) (raw : RawContext) : List String → Engine → Engine
  | [], engine => engine
  | source :: sources, engine =>
    afterEvaluations env raw sources (evaluate env raw source engine).2

theorem parsed_withDrawn (source : String) (engine : Engine) (drawn : Nat) :
    parsed source { engine with drawn } =
      ((parsed source engine).1, { (parsed source engine).2 with drawn }) := by
  have limits : ({ engine with drawn } : Engine).sourceLimits = engine.sourceLimits := rfl
  rw [parsed, parsed, limits]
  rcases engine.cache.get source with ⟨_ | expr, cache⟩
  · cases parseSource source engine.sourceLimits <;> rfl
  · rfl

/-- An evaluation has no use for the count of ids, and leaves it as it is. -/
theorem evaluate_withDrawn (source : String) (engine : Engine) (drawn : Nat) :
    evaluate env raw source { engine with drawn } =
      ((evaluate env raw source engine).1,
        { (evaluate env raw source engine).2 with drawn }) := by
  cases h : engine.admits env with
  | false =>
    rw [evaluate_of_refused h, evaluate_of_refused (by exact h)]
    rfl
  | true =>
    have asked : (requestAdmission env { engine with drawn }).2 =
        { (requestAdmission env engine).2 with drawn } := rfl
    rw [evaluate_of_admitted h, evaluate_of_admitted (by exact h), asked, parsed_withDrawn]
    rcases parsed source (requestAdmission env engine).2 with ⟨fault | expr, next⟩
    · rfl
    · rfl

theorem afterEvaluations_withDrawn (sources : List String) (engine : Engine) (drawn : Nat) :
    afterEvaluations env raw sources { engine with drawn } =
      { afterEvaluations env raw sources engine with drawn } := by
  induction sources generalizing engine with
  | nil => rfl
  | cons source sources ih =>
    rw [afterEvaluations, afterEvaluations, evaluate_withDrawn, ih]

theorem drawn_evaluate (source : String) (engine : Engine) :
    (evaluate env raw source engine).2.drawn = engine.drawn := by
  have same := @evaluate_withDrawn env raw source engine engine.drawn
  exact congrArg (fun run => run.2.drawn) same

/-- Placeholders leave the engine that their evaluations leave, and the ids that
they ask for are drawn. -/
theorem after_fillings (inners : List (List Char)) (engine : Engine) :
    after env (inners.map (.filling raw)) engine =
      { afterEvaluations env raw (sources inners) engine with
        drawn := engine.drawn + draws inners } := by
  induction inners generalizing engine with
  | nil => rfl
  | cons inner inners ih =>
    rw [List.map_cons, after_cons, ih]
    by_cases h : trim inner = uidMark
    · have step : (perform env (.filling raw inner) engine).2 =
          { engine with drawn := engine.drawn + 1 } := by
        rw [Action.filling_of_eq h]
        rfl
      have others : sources (inner :: inners) = sources inners := by simp [sources, h]
      have one : draws (inner :: inners) = 1 + draws inners := by
        simp [draws, h, Nat.add_comm]
      rw [step, others, one, afterEvaluations_withDrawn, ← Nat.add_assoc]
    · have step : (perform env (.filling raw inner) engine).2 =
          (evaluate env raw (String.ofList (trim inner)) engine).2 := by
        rw [Action.filling_of_ne h]
        rfl
      have more :
          sources (inner :: inners) = String.ofList (trim inner) :: sources inners := by
        simp [sources, h]
      have none : draws (inner :: inners) = draws inners := by simp [draws, h]
      rw [step, more, none, afterEvaluations, drawn_evaluate]

theorem length_performAll (actions : List Action) (engine : Engine) :
    (performAll env actions engine).1.length = actions.length := by
  induction actions generalizing engine with
  | nil => rfl
  | cons action actions ih => rw [performAll_cons, List.length_cons, ih, List.length_cons]

/-- What stands in the place of the `i`-th placeholder of a template
with these inner texts. -/
theorem getElem?_performAll_fillings {inners : List (List Char)} {i : Nat}
    {inner : List Char} (h : inners[i]? = some inner) (engine : Engine) :
    (performAll env (inners.map (.filling raw)) engine).1[i]? =
      some (perform env (.filling raw inner)
        { afterEvaluations env raw (sources (inners.take i)) engine with
          drawn := engine.drawn + draws (inners.take i) }).1 := by
  obtain ⟨hi, rfl⟩ := List.getElem?_eq_some_iff.1 h
  have split : inners = inners.take i ++ inners[i] :: inners.drop (i + 1) := by
    rw [List.getElem_cons_drop, List.take_append_drop]
  have length : ((inners.take i).map (Action.filling raw)).length = i := by
    rw [List.length_map, List.length_take_of_le (Nat.le_of_lt hi)]
  conv =>
    lhs
    rw [split, List.map_append, List.map_cons]
    arg 2
    rw [← length]
  rw [getElem?_performAll, after_fillings]

/-- A template has one layout. Its plain texts come out as they are. Of its
placeholders those beyond the limit are empty, and of the others each is a fresh id or
shows what one evaluation of the trimmed inner text gives, in the engine that the
evaluations in front of it left. -/
theorem interpolate_single_pass (env : Surroundings) (raw : RawContext) (template : String)
    (engine : Engine) :
    let limit := engine.settings.maxSubstitutions
    ∃ layout : Layout,
      (∀ other, Splits (template.toList.take engine.settings.maxTemplateLength) other ↔
        other = layout) ∧
      ∃ value : Nat → String,
        interpolate env raw template engine =
          (String.ofList (layout.filled value),
            { afterEvaluations env raw (sources (layout.inners.take limit)) engine with
              drawn := engine.drawn + draws (layout.inners.take limit) }) ∧
        ∀ i inner, layout.inners[i]? = some inner →
          (limit ≤ i → value i = "") ∧
          (i < limit → trim inner = uidMark →
            value i = (env.uid (engine.drawn + draws (layout.inners.take i))).text) ∧
          (i < limit → trim inner ≠ uidMark →
            value i = shown (evaluate env raw (String.ofList (trim inner))
              (afterEvaluations env raw (sources (layout.inners.take i)) engine)).1) := by
  intro limit
  let text := template.toList.take engine.settings.maxTemplateLength
  obtain ⟨layout, split⟩ := exists_splits text
  have unique : ∀ other, Splits text other ↔ other = layout := by
    intro other
    rw [splits_iff, ← splits_iff.1 split]
  let filled := layout.inners.take limit
  let answers := (performAll env (filled.map (.filling raw)) engine).1
  refine ⟨layout, unique, fun i => (answers.map Answer.shown)[i]?.getD "", ?_, ?_⟩
  · have filling : interpolate env raw template engine =
        (String.ofList (fill env raw limit (pieces text) engine).1,
          (fill env raw limit (pieces text) engine).2) := rfl
    rw [filling, pieces_of_splits split, fill_eq, fillings_pieces, ← after_fillings,
      ← weave_pieces]
    rfl
  · intro i inner hinner
    have shows : i < limit → (answers.map Answer.shown)[i]? =
        some (perform env (.filling raw inner)
          { afterEvaluations env raw (sources (layout.inners.take i)) engine with
            drawn := engine.drawn + draws (layout.inners.take i) }).1.shown := by
      intro hi
      have here : filled[i]? = some inner := by rw [List.getElem?_take_of_lt hi, hinner]
      have earlier : filled.take i = layout.inners.take i := by
        rw [List.take_take, Nat.min_eq_left (Nat.le_of_lt hi)]
      rw [List.getElem?_map, getElem?_performAll_fillings here, earlier, Option.map_some]
    dsimp only
    refine ⟨?_, ?_, ?_⟩
    · intro beyond
      have short : (answers.map Answer.shown).length ≤ i := by
        rw [List.length_map, length_performAll, List.length_map]
        exact Nat.le_trans (List.length_take_le limit _) beyond
      rw [List.getElem?_eq_none short, Option.getD_none]
    · intro hi uid
      rw [shows hi, Action.filling_of_eq uid, Option.getD_some]
      rfl
    · intro hi other
      rw [shows hi, Action.filling_of_ne other, Option.getD_some]
      show shown
        (evaluate env raw _ { afterEvaluations env raw _ engine with drawn := _ }).1 = _
      rw [evaluate_withDrawn]

-- What is filled in looks like a placeholder, and stays as it is. The second
-- placeholder is one too many.
theorem interpolate_single_pass_braces :
    let raw : RawContext := [("x", .text "\x7b\x7by\x7d\x7d")]
    let engine := ofSettings { maxSubstitutions := 1 }
    ∃ (layout : Layout) (value : Nat → String),
      Splits "<\x7b\x7b x \x7d\x7d|\x7b\x7bx\x7d\x7d>".toList layout ∧
      layout.inners = [" x ".toList, "x".toList] ∧
      value 0 = "\x7b\x7by\x7d\x7d" ∧ value 1 = "" ∧
      (interpolate still raw "<\x7b\x7b x \x7d\x7d|\x7b\x7bx\x7d\x7d>" engine).1 =
        "<\x7b\x7by\x7d\x7d|>" := by
  intro raw engine
  obtain ⟨layout, unique, value, run, places⟩ := interpolate_single_pass still raw
    "<\x7b\x7b x \x7d\x7d|\x7b\x7bx\x7d\x7d>" engine
  have split : layout = .hole ['<'] " x ".toList (.hole ['|'] ['x'] (.last ['>'])) :=
    ((unique _).1 (splits_iff.2 (by rfl))).symm
  subst split
  have first : value 0 = "\x7b\x7by\x7d\x7d" :=
    ((places 0 " x ".toList rfl).2.2 (by decide) (by decide)).trans (by rfl)
  have second : value 1 = "" := (places 1 ['x'] rfl).1 (by decide)
  refine ⟨_, value, (unique _).2 rfl, rfl, first, second, ?_⟩
  rw [run]
  simp only [Layout.filled, first, second]
  rfl

end Engine

end GuardedExpr
