import GuardedExpr.Proofs.Decimal.Whole
import GuardedExpr.Proofs.Expr.Faults
import GuardedExpr.Proofs.Expr.Reuse
import GuardedExpr.Proofs.Parse.Names

/-!
# Two ways to a property

Of anything but a text the property under a name is what the name selects in brackets: the
key is as safe there, and a name is no number of an element. Whole numbers select what
their digits do. Either way the host is asked the same.
-/

namespace GuardedExpr

open Lexeme

/-! ## Keys -/

/-- A word starts with no digit, and with no sign either. -/
theorem readNatural?_of_isWord {text : List Char} (h : IsWord text) :
    readNatural? text = none := by
  obtain ⟨c, rest, rfl, start, -⟩ := h
  have digit : c.isDigit = false := (not_isDigit_of_isWordStart start).1
  have unsigned : (c :: rest).head? ≠ some '+' := by
    rintro same
    obtain rfl := Option.some.inj same
    cases start
  rw [readNatural?, if_neg unsigned, List.all_cons, digit, Bool.false_and, Bool.and_false,
    Bool.false_and]
  rfl

/-- An identifier of a source is a safe key and no number of an element. -/
theorem safe_and_readNatural?_of_identifier {source : String} {limits : SourceLimits}
    {tokens : List Token} {token : Token} (scanned : tokenize source limits = .ok tokens)
    (member : token ∈ tokens) (kind : token.kind = .identifier) :
    isSafeKey token.text = true ∧ readNatural? token.text.toList = none := by
  obtain ⟨front, lexeme, cut, same, text⟩ :=
    exists_cut_of_tokenize scanned member (by rw [kind]; nofun)
  have word := (cut.isWord (same.trans kind)).1
  rw [text]
  refine ⟨(isUsableName_of_cut cut (same.trans kind)).1, ?_⟩
  rw [String.toList_ofList]
  exact readNatural?_of_isWord word

/-- The digits of an index are a safe key. -/
theorem isSafeKey_toString {n : Nat} (h : n ≤ maxIndex) : isSafeKey (toString n) = true := by
  have small : n < 10 ^ 5 := Nat.lt_of_le_of_lt h (by decide)
  have digits : ∀ c ∈ (toString n).toList, c.isDigit = true := by
    rw [Nat.toString_eq_repr, Nat.toList_repr]
    exact (isDigits_digitsOf n).2
  have short : (toString n).length ≤ 5 := by
    rw [Nat.toString_eq_repr]
    exact Nat.repr_length n 5 (by decide) small
  have wordy : ∀ key ∈ deniedKeys, key.toList.all Char.isDigit = false := by decide
  refine isSafeKey_iff.2 ⟨fun underscores => ?_, fun denied => ?_,
    Nat.le_trans short (by decide)⟩
  · exact absurd (digits '_' (underscores.subset List.mem_cons_self)) (by decide)
  · exact Bool.false_ne_true ((wordy _ denied).symm.trans (List.all_eq_true.2 digits))

namespace Value

variable {world : World} {object : Value} {name : String} {x : Float} {n : Nat}

theorem asKey?_number (h : n ≤ maxIndex) (whole : IsWhole x n) :
    asKey? (.number x) = some (toString n) := by
  rw [asKey?, whole.natOf? (Nat.lt_of_le_of_lt h (by decide))]
  exact if_pos h

theorem asKey?_text (safe : isSafeKey name = true) : asKey? (.text name) = some name :=
  if_pos safe

/-- What a name selects in brackets is the property under it, and the
host is asked the same. -/
theorem select_eq_member (notText : object.isText = false) (safe : isSafeKey name = true)
    (noNumber : readNatural? name.toList = none) :
    object.select world (.text name) = object.member world name := by
  rw [select.eq_def, asKey?_text safe, member.eq_def, if_pos safe]
  cases object with
  | text s => cases notText
  | list items =>
    show (pure (element items name) : ReadM Value) = _
    rw [element, noNumber]
  | _ => rfl

/-- A whole number selects what its digits select. -/
theorem select_number_eq_select_text (h : n ≤ maxIndex) (whole : IsWhole x n) :
    object.select world (.number x) = object.select world (.text (toString n)) := by
  rw [select.eq_def, select.eq_def, asKey?_number h whole,
    asKey?_text (isSafeKey_toString h)]

end Value

/-! ## Evaluations -/

namespace Scope

variable {scope : Scope} {object : Expr} {state after : EvalState} {key v : Value}

theorem depth_lt_of_eval_eq_ok (h : scope.eval object state = (.ok v, after)) :
    state.depth < scope.ceiling := by
  obtain ⟨parts, visits⟩ := exists_eval_eq_visit scope object
  refine Nat.lt_of_not_le fun above => ?_
  rw [visits, EvalM.visit_of_le above] at h
  cases h

theorem eval_literal (room : state.depth < scope.ceiling) :
    scope.eval (.literal v) state = (.ok v, state) := by
  rw [eval, EvalM.visit_of_lt room]
  rfl

/-- A literal in brackets adds nothing to the evaluation of the object
but what it selects. -/
theorem eval_index_literal {reading : Value → ReadM Value} (state : EvalState)
    (selects : ∀ v after, scope.eval object state.deeper = (.ok v, after) →
      v.select scope.world key = reading v) :
    scope.eval (.index object (.literal key)) state =
      EvalM.visit scope.ceiling
        (do let v ← scope.eval object; .ofRead (reading v)) state := by
  rcases Nat.lt_or_ge state.depth scope.ceiling with below | above
  · have parts : (do
          let v ← scope.eval object
          let key ← scope.eval (.literal key)
          .ofRead (v.select scope.world key) : EvalM Value) state.deeper =
        (do let v ← scope.eval object; .ofRead (reading v) : EvalM Value) state.deeper := by
      rcases run : scope.eval object state.deeper with ⟨fault | v, after⟩
      · rw [EvalM.bind_of_error run, EvalM.bind_of_error run]
      · have back : after.depth = state.deeper.depth := by
          rw [← scope.depth_eval object state.deeper, run]
        have room : after.depth < scope.ceiling := back ▸ depth_lt_of_eval_eq_ok run
        rw [EvalM.bind_of_ok run, EvalM.bind_of_ok run, EvalM.bind_of_ok (eval_literal room),
          selects v after run]
    rw [eval, EvalM.visit_of_lt below, EvalM.visit_of_lt below]
    rw [EvalState.deeper] at parts
    rw [parts]
  · rw [eval, EvalM.visit_of_le above, EvalM.visit_of_le above]

theorem eval_member_eq_eval_index {name : String} (safe : isSafeKey name = true)
    (noNumber : readNatural? name.toList = none)
    (notText : ∀ s after, scope.eval object state.deeper ≠ (.ok (.text s), after)) :
    scope.eval (.member object name) state =
      scope.eval (.index object (.literal (.text name))) state := by
  have selects : ∀ v after, scope.eval object state.deeper = (.ok v, after) →
      v.select scope.world (.text name) = v.member scope.world name := by
    intro v after run
    refine Value.select_eq_member ?_ safe noNumber
    cases v with
    | text s => exact absurd run (notText s after)
    | _ => rfl
  rw [eval_index_literal state selects, eval]

theorem eval_index_number_eq {x : Float} {n : Nat} (h : n ≤ maxIndex) (whole : IsWhole x n) :
    scope.eval (.index object (.literal (.number x))) =
      scope.eval (.index object (.literal (.text (toString n)))) := by
  funext state
  rw [eval_index_literal state fun v _ _ => Value.select_number_eq_select_text h whole,
    eval_index_literal state fun v _ _ => rfl]

end Scope

/-- Of anything but a text an identifier has the same property behind a dot as in brackets,
and a whole number selects what its digits do, with the same reads of the host. So do the
evaluations of such accesses, from any state and whatever comes of the object. -/
theorem accesses_agree (scope : Scope) :
    (∀ source limits tokens, tokenize source limits = .ok tokens →
      ∀ token ∈ tokens, token.kind = .identifier →
        (∀ object : Value, object.isText = false →
          object.member scope.world token.text =
            object.select scope.world (.text token.text)) ∧
        ∀ (object : Expr) (state : EvalState),
          (∀ s after, scope.eval object state.deeper ≠ (.ok (.text s), after)) →
          scope.eval (.member object token.text) state =
            scope.eval (.index object (.literal (.text token.text))) state) ∧
    ∀ n ≤ 10000, ∀ x, IsWhole x n →
      (∀ object : Value,
        object.select scope.world (.number x) =
          object.select scope.world (.text (toString n))) ∧
      ∀ object : Expr, scope.eval (.index object (.literal (.number x))) =
        scope.eval (.index object (.literal (.text (toString n)))) := by
  constructor
  · intro source limits tokens scanned token member kind
    obtain ⟨safe, noNumber⟩ := safe_and_readNatural?_of_identifier scanned member kind
    exact ⟨fun object notText => (Value.select_eq_member notText safe noNumber).symm,
      fun object state => Scope.eval_member_eq_eval_index safe noNumber⟩
  · intro n h x whole
    exact ⟨fun object => Value.select_number_eq_select_text h whole,
      fun object => Scope.eval_index_number_eq h whole⟩

theorem accesses_agree_box :
    let scope : Scope := {
      world := ⟨fun _ _ key => some (.text key), fun _ => []⟩
      context := { vars := [("box", .host ⟨⟨0⟩, 1⟩)] } }
    let box : Expr := .identifier "box"
    tokenize "lid" = .ok [⟨.identifier, "lid", 0⟩, Token.endAt 3] ∧ IsWhole 7.0 7 ∧
      scope.eval (.index box (.literal (.text "lid"))) {} =
        (.ok (.text "lid"), { reads := [⟨⟨0⟩, "lid"⟩] }) ∧
      scope.eval (.index box (.literal (.number 7.0))) {} =
        (.ok (.text "7"), { reads := [⟨⟨0⟩, "7"⟩] }) := by
  intro scope box
  have scanned : tokenize "lid" = .ok [⟨.identifier, "lid", 0⟩, Token.endAt 3] := by rfl
  have whole : IsWhole 7.0 7 := .inl (Float.toBits_inj.1 (by decide +kernel))
  have found :
      scope.eval box ({} : EvalState).deeper = (.ok (.host ⟨⟨0⟩, 1⟩), ⟨1, []⟩) := by rfl
  obtain ⟨names, numbers⟩ := accesses_agree scope
  refine ⟨scanned, whole, ?_, ?_⟩
  · rw [← (names _ _ _ scanned _ List.mem_cons_self rfl).2 box {} (by rw [found]; nofun)]
    rfl
  · rw [(numbers 7 (by decide) 7.0 whole).2 box]
    rfl

end GuardedExpr
