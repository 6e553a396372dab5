import GuardedExpr.Proofs.Parse.Failure

/-!
# The earliest token that cannot come next

Tokens that are refused, and not for their nesting, are refused at the first one with which
they begin no expression any more. The tokens in front of it begin one, since a parser
opens nothing that it could not close, and with it they begin none, since a parser that has
looked at it does not look further.
-/

namespace GuardedExpr

open Parse

variable {tokens us : List Token} {e : Expr} {fault : Fault}

/-- Up to the first end marker there are no others, so completed tokens do
not end in front of it. -/
theorem exists_cons_of_completed_eq_append {rest : List Token}
    (inside : ∀ token ∈ us, token.kind ≠ .endOfInput)
    (split : completed tokens = us ++ rest) :
    ∃ next after, rest = next :: after := by
  refine List.exists_cons_of_ne_nil ?_
  rintro rfl
  obtain ⟨marker, after, whole, kind⟩ := exists_completed_eq tokens
  rw [List.append_nil] at split
  exact inside marker (by simp [← split, whole]) kind

/-! ## Where tokens are refused -/

/-- The tokens are refused behind `us` and at what is next at `stop`, as all
others that begin so are. -/
structure RefusedAt (tokens us : List Token) (stop : Cursor) (fault : Fault) : Prop where
  split : completed tokens = us ++ stop.rest
  stuck : Stuck .conditional maxNesting us stop fault
  others : ∀ other rest, completed other = us ++ rest →
    rest.head?.bind Token.named? = stop.next? → ∀ e, parse other ≠ .ok e

/-- A parse of other tokens that gives an expression starts from the same
place in front of them. -/
theorem exists_run_of_parse_eq_ok {other : List Token} (h : parse other = .ok e)
    (tokens : List Token) :
    ∃ stop, conditional (maxNesting + 1) ((Cursor.ofTokens tokens).instead (completed other)
        (Cursor.ofTokens other).endPosition) = .ok (e, stop) ∧ stop.next? = none :=
  exists_of_parseWithin_eq_ok (parse_eq_parseWithin other ▸ h)

theorem refusedAt_of_empty (hnext : (Cursor.ofTokens tokens).next? = none) :
    RefusedAt tokens [] (.ofTokens tokens)
      (.parse .emptyExpression (Cursor.ofTokens tokens).position) where
  split := rfl
  stuck := .here (begins_nil _ _) rfl (by simp [ParseCause.found?])
  others := by
    intro other rest same next e parsed
    have derives := derives_of_parse_eq_ok parsed
    have ended : (Cursor.ofTokens other).next? = none := by
      rw [Cursor.next?_eq, ← hnext, ← next]
      exact congrArg (·.head?.bind Token.named?) same
    rw [← beforeEnd_completed] at derives
    exact derives.ne_nil (beforeEnd_of_next?_eq_none ended)

theorem refusedAt_of_error
    (hrun : conditional (maxNesting + 1) (.ofTokens tokens) = .error fault)
    (spacious : ¬ OutOfRoom fault) : ∃ us stop, RefusedAt tokens us stop fault := by
  have settled := settledAs_conditional (maxNesting + 1) (.ofTokens tokens)
  rw [SettledAs, Settled, hrun] at settled
  obtain ⟨us, stop, split, -, stuck, alike⟩ := settled.resolve_left spacious
  refine ⟨us, stop, split, stuck, fun other rest start next e parsed => ?_⟩
  obtain ⟨last, run, -⟩ := exists_run_of_parse_eq_ok parsed tokens
  obtain ⟨fault', failed⟩ := alike rest (Cursor.ofTokens other).endPosition next
  rw [← start] at failed
  cases run.symm.trans failed

theorem refusedAt_of_trailing {stop : Cursor} {token : Token}
    (hrun : conditional (maxNesting + 1) (.ofTokens tokens) = .ok (e, stop))
    (hstop : stop.next? = some token) :
    ∃ us, RefusedAt tokens us stop (.parse (.trailing (some token)) stop.position) := by
  have settled := settledAs_conditional (maxNesting + 1) (.ofTokens tokens)
  rw [SettledAs, Settled, hrun] at settled
  obtain ⟨us, split, -, ⟨-, derives⟩, alike⟩ := settled
  refine ⟨us, split, .here derives.begins rfl ?_, fun other rest start next e parsed => ?_⟩
  · simp [ParseCause.found?, hstop]
  · obtain ⟨last, run, ended⟩ := exists_run_of_parse_eq_ok parsed tokens
    have read := alike rest (Cursor.ofTokens other).endPosition next
    rw [← start] at read
    cases run.symm.trans read
    rw [Cursor.next?_instead, next, hstop] at ended
    cases ended

theorem exists_refusedAt (failed : parse tokens = .error fault)
    (shallow : ∀ position, fault ≠ .parse (.nestedTooDeep maxNesting) position) :
    ∃ us stop, RefusedAt tokens us stop fault := by
  have spacious : ¬ OutOfRoom fault := by
    rintro ⟨place, deep | few⟩
    · exact shallow place deep
    · obtain ⟨cause, position, found, enough⟩ := exists_of_parse_eq_error failed
      cases found.symm.trans few
      exact enough rfl
  rw [parse_eq_parseWithin, parseWithin] at failed
  cases hnext : (Cursor.ofTokens tokens).next? with
  | none =>
    simp only [hnext, Except.error.injEq] at failed
    exact ⟨_, _, failed ▸ refusedAt_of_empty hnext⟩
  | some token =>
    simp only [hnext] at failed
    cases hrun : conditional (maxNesting + 1) (.ofTokens tokens) with
    | error found =>
      simp only [hrun, Except.error.injEq] at failed
      exact refusedAt_of_error (hrun.trans (congrArg _ failed)) spacious
    | ok result =>
      cases hstop : result.2.next? with
      | none => simp [hrun, hstop] at failed
      | some token =>
        simp only [hrun, hstop, Except.error.injEq] at failed
        obtain ⟨us, refused⟩ := refusedAt_of_trailing hrun hstop
        exact ⟨us, result.2, failed ▸ refused⟩

/-- Tokens that are refused, and not for their nesting, are refused at the first one with
which they begin no expression. That is also the one that the fault names as found. -/
theorem parse_blames_earliest (failed : parse tokens = .error fault)
    (shallow : ∀ position, fault ≠ .parse (.nestedTooDeep maxNesting) position) :
    ∃ read next after, completed tokens = read ++ next :: after ∧
      (∀ more e, parse (read ++ next :: more) ≠ .ok e) ∧
      (∃ more e, parse (read ++ more) = .ok e) ∧
      Blames read next.named? next.position fault := by
  obtain ⟨us, stop, split, ⟨⟨vs, e, derives⟩, blames⟩, refused⟩ :=
    exists_refusedAt failed shallow
  have inside : ∀ token ∈ us, token.kind ≠ .endOfInput := fun token member =>
    derives.kind_ne_endOfInput token (List.mem_append_left vs member)
  have viable : parse (us ++ vs) = .ok e := by
    refine parse_eq_ok_of_derives ?_
    rwa [beforeEnd_eq_self derives.kind_ne_endOfInput]
  obtain ⟨next, after, hrest⟩ := exists_cons_of_completed_eq_append inside split
  have named : stop.next? = next.named? := by
    rw [Cursor.next?, Cursor.next, hrest, List.headD_cons]
  have place : stop.position = next.position := by
    rw [Cursor.position, Cursor.next, hrest, List.headD_cons]
  refine ⟨us, next, after, hrest ▸ split, fun more => ?_, ⟨vs, e, viable⟩, ?_⟩
  · obtain ⟨added, whole⟩ := exists_completed_eq_append (us ++ next :: more)
    refine refused _ (next :: more ++ added) (by rw [whole, List.append_assoc]) ?_
    exact named.symm
  · rwa [← named, ← place]

-- The second name cannot come next, and it is the parenthesis in front that is reported.
theorem parse_blames_earliest_unclosed :
    let tokens : List Token :=
      [⟨.leftParen, "(", 0⟩, ⟨.identifier, "a", 1⟩, ⟨.identifier, "b", 3⟩]
    let fault : Fault := .parse (.unmatchedParen (some ⟨.identifier, "b", 3⟩)) 0
    parse tokens = .error fault ∧
      (∀ position, fault ≠ .parse (.nestedTooDeep maxNesting) position) ∧
      completed tokens = tokens ++ [.endAt 4] ∧
      ∃ read next after, completed tokens = read ++ next :: after ∧
        (∀ more e, parse (read ++ next :: more) ≠ .ok e) ∧
        (∃ more e, parse (read ++ more) = .ok e) ∧
        Blames read next.named? next.position fault := by
  intro tokens fault
  have failed : parse tokens = .error fault := by rfl
  have shallow : ∀ position, fault ≠ .parse (.nestedTooDeep maxNesting) position := by
    simp [fault]
  exact ⟨failed, shallow, rfl, parse_blames_earliest failed shallow⟩

end GuardedExpr
