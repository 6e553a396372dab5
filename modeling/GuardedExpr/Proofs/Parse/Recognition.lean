import GuardedExpr.Proofs.Parse.Completeness
import GuardedExpr.Proofs.Parse.Marker

/-!
# The parser recognizes the grammar

`parse` gives an expression for exactly those tokens that are a conditional of the grammar,
and it is the expression that the grammar gives. On all other tokens it fails with a fault
of parsing. Of the tokens only those up to the first end marker count.
-/

namespace GuardedExpr

open Parse

theorem room_ofTokens (tokens : List Token) :
    (Cursor.ofTokens tokens).room = maxNesting := rfl

/-- A parse that gives an expression has read tokens up to an end marker. -/
theorem exists_of_parseWithin_eq_ok {activations : Nat} {tokens : List Token} {e : Expr}
    (h : parseWithin activations tokens = .ok e) :
    ∃ stop, conditional activations (.ofTokens tokens) = .ok (e, stop) ∧
      stop.next? = none := by
  rw [parseWithin] at h
  cases hnext : (Cursor.ofTokens tokens).next? with
  | none => simp [hnext] at h
  | some token =>
    simp only [hnext] at h
    cases hc : conditional activations (.ofTokens tokens) with
    | error fault => simp [hc] at h
    | ok result =>
      obtain ⟨expr, stop⟩ := result
      simp only [hc] at h
      cases hstop : stop.next? with
      | some token => simp [hstop] at h
      | none =>
        simp only [hstop, Except.ok.injEq] at h
        exact ⟨stop, by rw [h], hstop⟩

theorem derives_of_parse_eq_ok {tokens : List Token} {e : Expr} (h : parse tokens = .ok e) :
    Derives .conditional maxNesting (beforeEnd tokens) e := by
  obtain ⟨stop, run, hstop⟩ := exists_of_parseWithin_eq_ok h
  obtain ⟨us, hstart, hus⟩ := (reads_conditional _ _).exists_of_eq_ok run
  have split : completed tokens = us ++ stop.rest := congrArg Cursor.rest hstart
  have htokens : beforeEnd tokens = us := by
    rw [← beforeEnd_completed, split, beforeEnd_append hus.kind_ne_endOfInput,
      beforeEnd_of_next?_eq_none hstop, List.append_nil]
  rwa [htokens, ← room_ofTokens tokens]

theorem parse_eq_ok_of_derives {tokens : List Token} {e : Expr}
    (h : Derives .conditional maxNesting (beforeEnd tokens) e) : parse tokens = .ok e := by
  obtain ⟨marker, after, whole, kind⟩ := exists_completed_eq tokens
  let stop : Cursor := { Cursor.ofTokens tokens with rest := marker :: after }
  have hstart : Cursor.ofTokens tokens = stop.behind (beforeEnd tokens) :=
    congrArg (fun rest => { Cursor.ofTokens tokens with rest }) whole
  have hstop : stop.next? = none := if_pos kind
  have hends : Ends .conditional stop := by
    intro token htoken
    rw [hstop] at htoken
    cases htoken
  have hread : conditional (maxNesting + 1) (stop.behind (beforeEnd tokens)) =
      .ok (e, stop) :=
    conditional_behind h (Nat.lt_succ_self maxNesting) hends
  rw [parse_eq_parseWithin, parseWithin, hstart]
  obtain ⟨token, rest, hrest⟩ := List.exists_cons_of_ne_nil h.ne_nil
  have inside : token.kind ≠ .endOfInput :=
    h.kind_ne_endOfInput token (hrest ▸ List.mem_cons_self)
  rw [hrest] at hread ⊢
  simp only [hread, Cursor.next?_behind_cons inside, hstop]

/-- Without an expression there is a fault of parsing, and not that of
a missing activation. -/
theorem exists_of_parse_eq_error {tokens : List Token} {fault : Fault}
    (h : parse tokens = .error fault) :
    ∃ cause position, fault = .parse cause position ∧ cause ≠ .tooManyActivations := by
  rw [parse, parseWithin] at h
  cases hnext : (Cursor.ofTokens tokens).next? with
  | none =>
    simp only [hnext, Except.error.injEq] at h
    exact ⟨_, _, h.symm, by simp⟩
  | some token =>
    simp only [hnext] at h
    have hlength : (Cursor.ofTokens tokens).rest.length < (completed tokens).length + 1 :=
      Nat.lt_succ_self _
    have hreads := reads_conditional_of_length_lt hlength
    cases hc : conditional ((completed tokens).length + 1) (.ofTokens tokens) with
    | error fault' =>
      simp only [hc, Except.error.injEq] at h
      rw [Reads, hc] at hreads
      exact h ▸ hreads
    | ok result =>
      simp only [hc] at h
      cases hstop : result.2.next? with
      | none => simp [hstop] at h
      | some token =>
        simp only [hstop, Except.error.injEq] at h
        exact ⟨_, _, h.symm, by simp⟩

theorem parse_recognizes_grammar (tokens : List Token) :
    (∀ e, parse tokens = .ok e ↔ Derives .conditional maxNesting (beforeEnd tokens) e) ∧
    ((¬ ∃ e, Derives .conditional maxNesting (beforeEnd tokens) e) ↔
      ∃ cause position, parse tokens = .error (.parse cause position) ∧
        cause ≠ .tooManyActivations) ∧
    ∀ us text position after,
      parse (us ++ ⟨.endOfInput, text, position⟩ :: after) =
        parse (us ++ [⟨.endOfInput, text, position⟩]) := by
  have hok : ∀ e, parse tokens = .ok e ↔
      Derives .conditional maxNesting (beforeEnd tokens) e :=
    fun e => ⟨derives_of_parse_eq_ok, parse_eq_ok_of_derives⟩
  refine ⟨hok, ?_, ?_⟩
  · constructor
    · intro hnone
      cases h : parse tokens with
      | ok e => exact absurd ⟨e, (hok e).1 h⟩ hnone
      | error fault =>
        obtain ⟨cause, position, rfl, hne⟩ := exists_of_parse_eq_error h
        exact ⟨cause, position, rfl, hne⟩
    · rintro ⟨cause, position, h, -⟩ ⟨e, he⟩
      rw [(hok e).2 he] at h
      cases h
  · intro us text position after
    exact parse_append_marker rfl us after []

end GuardedExpr
