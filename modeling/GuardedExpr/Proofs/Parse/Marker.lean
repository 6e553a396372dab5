import GuardedExpr.Proofs.Parse.Rounds
import GuardedExpr.Proofs.Parse.Steps

/-!
# What stands behind the first end marker

A parser does not get past an end marker. So two lists of tokens that are the same up to
the first marker are the same to it: `Blind p` says so of a parser `p`, of the result as
well as of the fault. It holds of the steps, and so of what is made of them. The rounds of
the loops are bounded by all tokens to come, also those behind the marker, but any bound
that is large enough gives the same result.
-/

namespace GuardedExpr

/-- The tokens in front of the first end marker. -/
def beforeEnd (tokens : List Token) : List Token :=
  tokens.takeWhile (·.kind != .endOfInput)

section BeforeEnd

variable {tokens us : List Token}

theorem beforeEnd_append (h : ∀ token ∈ us, token.kind ≠ .endOfInput) (vs : List Token) :
    beforeEnd (us ++ vs) = us ++ beforeEnd vs :=
  List.takeWhile_append_of_pos fun token member => bne_iff_ne.2 (h token member)

theorem beforeEnd_eq_self (h : ∀ token ∈ us, token.kind ≠ .endOfInput) :
    beforeEnd us = us := by
  simpa [beforeEnd] using beforeEnd_append h []

theorem beforeEnd_cons_marker {marker : Token} (h : marker.kind = .endOfInput)
    (after : List Token) :
    beforeEnd (marker :: after) = [] := by
  simp [beforeEnd, h]

theorem kind_ne_endOfInput_of_mem_beforeEnd :
    ∀ token ∈ beforeEnd tokens, token.kind ≠ .endOfInput :=
  fun token member => by simpa using List.all_eq_true.1 List.all_takeWhile token member

theorem exists_completed_eq_append (tokens : List Token) :
    ∃ added, completed tokens = tokens ++ added := by
  rw [completed]
  split
  next none =>
    rw [List.getLast?_eq_none_iff.1 none]
    exact ⟨_, rfl⟩
  next last _ =>
    split
    · exact ⟨[], (List.append_nil tokens).symm⟩
    · exact ⟨_, rfl⟩

theorem mem_of_mem_completed {token : Token} (h : token ∈ completed tokens)
    (inside : token.kind ≠ .endOfInput) : token ∈ tokens := by
  have marker : ∀ place, token ≠ .endAt place := by
    rintro place rfl
    exact inside rfl
  rw [completed] at h
  split at h
  · exact absurd (List.mem_singleton.1 h) (marker 0)
  · split at h
    · exact h
    · exact (List.mem_append.1 h).resolve_right fun added =>
        marker _ (List.mem_singleton.1 added)

/-- Completed tokens have a marker behind those in front of the first one. -/
theorem exists_completed_eq (tokens : List Token) : ∃ marker after,
    completed tokens = beforeEnd tokens ++ marker :: after ∧ marker.kind = .endOfInput := by
  cases hfind : tokens.find? (·.kind == .endOfInput) with
  | some marker =>
    obtain ⟨found, us, rest, rfl, before⟩ := List.find?_eq_some_iff_append.1 hfind
    have kind : marker.kind = .endOfInput := beq_iff_eq.1 found
    have read : beforeEnd (us ++ marker :: rest) = us := by
      rw [beforeEnd_append (by simpa using before), beforeEnd_cons_marker kind,
        List.append_nil]
    obtain ⟨added, whole⟩ := exists_completed_eq_append (us ++ marker :: rest)
    exact ⟨marker, rest ++ added, by simp [whole, read], kind⟩
  | none =>
    have unmarked : ∀ token ∈ tokens, token.kind ≠ .endOfInput := by simpa using hfind
    rw [beforeEnd_eq_self unmarked, completed]
    cases hlast : tokens.getLast? with
    | none => exact ⟨.endAt 0, [], by simp [List.getLast?_eq_none_iff.1 hlast], rfl⟩
    | some last =>
      have kind := unmarked last (List.mem_of_getLast? hlast)
      exact ⟨_, [], if_neg kind, rfl⟩

theorem beforeEnd_completed (tokens : List Token) :
    beforeEnd (completed tokens) = beforeEnd tokens := by
  obtain ⟨marker, after, whole, kind⟩ := exists_completed_eq tokens
  rw [whole, beforeEnd_append kind_ne_endOfInput_of_mem_beforeEnd,
    beforeEnd_cons_marker kind, List.append_nil]

/-- Where no token is next, none is in front of the first end marker. -/
theorem beforeEnd_of_next?_eq_none {start : Cursor} (h : start.next? = none) :
    beforeEnd start.rest = [] := by
  rw [Cursor.next?_eq] at h
  cases rest : start.rest with
  | nil => rfl
  | cons token behind =>
    rw [rest, List.head?_cons, Option.bind_some, Token.named?] at h
    split at h
    · next kind => exact beforeEnd_cons_marker kind behind
    · cases h

end BeforeEnd

/-- The same tokens up to a first end marker, and perhaps others behind it. -/
inductive SameUpToEnd : List Token → List Token → Prop where
  | marker {marker : Token} {after after' : List Token} :
      marker.kind = .endOfInput → SameUpToEnd (marker :: after) (marker :: after')
  | token {token : Token} {rest rest' : List Token} :
      token.kind ≠ .endOfInput → SameUpToEnd rest rest' →
      SameUpToEnd (token :: rest) (token :: rest')

theorem sameUpToEnd_append {marker : Token} (h : marker.kind = .endOfInput)
    (us after after' : List Token) :
    SameUpToEnd (us ++ marker :: after) (us ++ marker :: after') := by
  induction us with
  | nil => exact .marker h
  | cons token us ih =>
    by_cases kind : token.kind = .endOfInput
    · exact .marker kind
    · exact .token kind ih

/-- Two places that are the same up to the first end marker. -/
structure Cursor.Alike (start start' : Cursor) : Prop where
  ahead : SameUpToEnd start.rest start'.rest
  nesting : start.nesting = start'.nesting

namespace Cursor.Alike

variable {start start' : Cursor}

theorem next (h : start.Alike start') : start.next = start'.next := by
  obtain ⟨rest, endPosition, depth⟩ := start
  obtain ⟨rest', endPosition', depth'⟩ := start'
  obtain ⟨ahead, -⟩ := h
  cases ahead with
  | marker => rfl
  | token => rfl

theorem next? (h : start.Alike start') : start.next? = start'.next? :=
  congrArg Token.named? h.next

theorem position (h : start.Alike start') : start.position = start'.position :=
  congrArg Token.position h.next

theorem passed (h : start.Alike start') : start.passed.Alike start'.passed := by
  have same := h.next?
  cases hnext : start.next? with
  | none =>
    rw [hnext] at same
    rw [Cursor.passed, Cursor.passed, hnext, ← same]
    exact h
  | some token =>
    rw [hnext] at same
    obtain ⟨inside, stop, rfl⟩ := eq_behind_of_next? hnext
    obtain ⟨-, stop', rfl⟩ := eq_behind_of_next? same.symm
    rw [passed_behind inside, passed_behind inside]
    obtain ⟨ahead, nesting⟩ := h
    cases ahead with
    | marker kind => exact absurd kind inside
    | token _ ahead => exact ⟨ahead, nesting⟩

end Cursor.Alike

namespace Parse

/-- From places that are the same up to the first end marker the parser comes to the same. -/
def Blind {α : Type} (p : ParseM α) : Prop :=
  ∀ start start' : Cursor, start.Alike start' →
    Outcome (fun a stop => ∃ stop', p start' = .ok (a, stop') ∧ stop.Alike stop')
      (fun fault => p start' = .error fault) (p start)

/-- The next token and the place of a fault are the same. -/
theorem keptBySteps_blind : KeptBySteps (fun _ => True) Blind where
  pure _ _ start' alike := ⟨start', rfl, alike⟩
  bind {_ _ p f} first second start start' alike := by
    have run := first start start' alike
    cases here : p start with
    | error fault =>
      rw [here] at run
      rw [bind_error here]
      exact bind_error run f
    | ok result =>
      rw [here] at run
      obtain ⟨stop', there, further⟩ := run
      rw [bind_ok here, bind_ok there]
      exact second _ _ _ further
  peek_bind h start start' alike := by
    rw [Parse.peek_bind, Parse.peek_bind, ← alike.next?]
    exact h _ (fun _ _ => trivial) start start' alike
  advance _ start' alike := ⟨start'.passed, rfl, alike.passed⟩
  accept wanted start start' alike := by
    rw [accept, accept, ← alike.next?]
    split
    · exact ⟨start'.passed, rfl, alike.passed⟩
    · exact ⟨start', rfl, alike⟩
  enter start start' alike := by
    rw [enter, enter, ← alike.nesting, ← alike.position]
    split
    · rfl
    · exact ⟨{ start' with nesting := start.nesting + 1 }, rfl, alike.ahead, rfl⟩
  leave _ start' alike :=
    ⟨{ start' with nesting := start'.nesting - 1 }, rfl, alike.ahead,
      congrArg (· - 1) alike.nesting⟩
  number {token} _ _ start start' alike := by
    rw [number]
    cases readDouble? token.text.toList with
    | some x => exact ⟨start', rfl, alike⟩
    | none => rfl
  fail {_ cause} _ start start' alike := by
    show fail cause start' = _
    rw [fail_apply, alike.position]
  failAt _ _ _ _ _ := rfl

/-- A loop that is blind whatever bounds its rounds is blind with the tokens to come as the
bound: from two places it takes the rounds that both of them have room for. -/
theorem blind_of_rounds {loop : ParseM Expr} {rounds : List Token → ParseM Expr}
    (bounded : ∀ (start : Cursor) (budget : List Token),
      start.rest.length ≤ budget.length → loop start = rounds budget start)
    (h : ∀ budget, Blind (rounds budget)) : Blind loop := by
  intro start start' alike
  rw [bounded start (start.rest ++ start'.rest) (by simp),
    bounded start' (start.rest ++ start'.rest) (by simp)]
  exact h _ start start' alike

/-! ### Parsers -/

section Parsers

variable {sub : ParseM Expr}

theorem blind_accessing (hsub : Blind sub)
    (hreads : ∀ inner : Cursor, Reads .conditional OfParsing sub inner) (object : Expr) :
    Blind (accessing sub object) :=
  blind_of_rounds
    (fun _ _ enough => accesses_budget hreads _ _ object (Nat.le_refl _) enough)
    fun budget => keptBySteps_blind.accesses hsub budget object

theorem blind_access (hsub : Blind sub)
    (hreads : ∀ inner : Cursor, Reads .conditional OfParsing sub inner) :
    Blind (access sub) :=
  keptBySteps_blind.bind (keptBySteps_blind.primary hsub) (blind_accessing hsub hreads)

/-- An end marker is no operator, so the operators in front of an
operand are in front of it. -/
theorem sameUpToEnd_unaryOps {rest rest' : List Token} (h : SameUpToEnd rest rest') :
    (unaryOps rest).1 = (unaryOps rest').1 ∧
      SameUpToEnd (unaryOps rest).2 (unaryOps rest').2 := by
  induction h with
  | marker kind =>
    have operand : ∀ token : Token, token.kind = .endOfInput → unaryOp? token = none := by
      intro token kind
      simp [unaryOp?, Token.isOperator, kind]
    rw [unaryOps, unaryOps, operand _ kind]
    exact ⟨rfl, .marker kind⟩
  | @token token _ _ kind same ih =>
    rw [unaryOps, unaryOps]
    cases unaryOp? token with
    | none => exact ⟨rfl, .token kind same⟩
    | some op => exact ⟨congrArg (op :: ·) ih.1, ih.2⟩

theorem blind_unary (haccess : Blind (access sub)) : Blind (unary sub) := by
  intro start start' alike
  obtain ⟨ops, ahead⟩ := sameUpToEnd_unaryOps alike.ahead
  have run : Blind (access sub >>= fun operand =>
      pure ((unaryOps start.rest).1.foldr Expr.unary operand)) :=
    keptBySteps_blind.bind haccess fun operand => keptBySteps_blind.pure _
  have further := run { start with rest := (unaryOps start.rest).2 }
    { start' with rest := (unaryOps start'.rest).2 } ⟨ahead, alike.nesting⟩
  rw [ops] at further
  rw [unary, get_bind, get_bind, ops]
  exact further

theorem blind_operating {level : List BinaryOp} {category : Category}
    {operand : ParseM Expr} (hoperand : Blind operand)
    (hreads : ∀ start : Cursor, Reads category OfParsing operand start) (left : Expr) :
    Blind (operating level operand left) :=
  blind_of_rounds
    (fun _ _ enough => operations_budget hreads _ _ left (Nat.le_refl _) enough)
    fun budget => keptBySteps_blind.operations hoperand budget left

theorem blind_category (hsub : Blind sub)
    (hreads : ∀ inner : Cursor, Reads .conditional OfParsing sub inner)
    (category : Category) :
    Blind (parser sub category) := by
  induction category using Category.tighter_induction with
  | primary => exact keptBySteps_blind.primary hsub
  | loosen category hne ih =>
    have inner : ∀ start : Cursor, InnerReads OfParsing start.rest.length sub := fun _ =>
      ⟨fun cause position _ => ⟨cause, position, rfl⟩, fun inner _ => hreads inner⟩
    have operands : ∀ start : Cursor,
        Reads category.tighter OfParsing (parser sub category.tighter) start :=
      fun start => reads_category (inner start) _ (Nat.le_refl _)
    cases category with
    | primary => exact absurd rfl hne
    | access => exact blind_access hsub hreads
    | unary => exact blind_unary ih
    | conditional => exact keptBySteps_blind.conditionalWith hsub ih
    | _ => exact keptBySteps_blind.bind ih (blind_operating ih operands)

end Parsers

theorem blind_conditional (activations : Nat) : Blind (conditional activations) := by
  induction activations with
  | zero => exact keptBySteps_blind.fail (by simp)
  | succ activations ih =>
    exact blind_category ih (reads_conditional activations) .conditional

end Parse

theorem parseWithin_congr_of_alike {tokens tokens' : List Token}
    (alike : (Cursor.ofTokens tokens).Alike (.ofTokens tokens')) (activations : Nat) :
    parseWithin activations tokens = parseWithin activations tokens' := by
  have run := Parse.blind_conditional activations _ _ alike
  simp only [parseWithin, ← alike.next?, ← alike.position]
  cases here : Parse.conditional activations (.ofTokens tokens) with
  | error fault =>
    rw [here] at run
    rw [run]
  | ok result =>
    rw [here] at run
    obtain ⟨stop', there, further⟩ := run
    rw [there]
    simp only [← further.next?, ← further.position]

/-- What stands behind an end marker makes no difference. -/
theorem parse_append_marker {marker : Token} (h : marker.kind = .endOfInput)
    (us after after' : List Token) :
    parse (us ++ marker :: after) = parse (us ++ marker :: after') := by
  obtain ⟨added, whole⟩ := exists_completed_eq_append (us ++ marker :: after)
  obtain ⟨added', whole'⟩ := exists_completed_eq_append (us ++ marker :: after')
  have ahead : SameUpToEnd (completed (us ++ marker :: after))
      (completed (us ++ marker :: after')) := by
    rw [whole, whole', List.append_assoc, List.append_assoc]
    exact sameUpToEnd_append h us _ _
  rw [parse_eq_parseWithin, parse_eq_parseWithin]
  exact parseWithin_congr_of_alike ⟨ahead, rfl⟩ _

end GuardedExpr
