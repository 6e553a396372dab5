import GuardedExpr.Proofs.Parse.Earliest

/-!
# How deep the parser recurses

Among the tokens of a list a parser stands in front of one of them, with some levels open.
A parser that succeeds goes on to a later token, from no place up to the first end marker
beyond that marker, and leaves the levels as they were. As every conditional inside another
one stands a level deeper, no more than 65 are ever open inside one another, and on tokens
that nest as deep as they may it takes all of them.
-/

namespace GuardedExpr

open Parse

variable {tokens us : List Token} {index nesting room : Nat} {e : Expr} {fault : Fault}

/-- The place in front of the token with this index, with so many levels open. -/
def Cursor.inFront (tokens : List Token) (index nesting : Nat) : Cursor :=
  { Cursor.ofTokens tokens with rest := (completed tokens).drop index, nesting }

/-- The index of the first end marker, or the number of the tokens if there is none. -/
def endIndex (tokens : List Token) : Nat :=
  tokens.findIdx (·.kind == .endOfInput)

theorem length_beforeEnd (tokens : List Token) :
    (beforeEnd tokens).length = endIndex tokens := by
  have marker : (fun token : Token => !(token.kind != .endOfInput)) =
      (·.kind == .endOfInput) := by
    funext token
    exact Bool.not_not _
  rw [beforeEnd, List.takeWhile_eq_take_findIdx_not, marker]
  exact List.length_take_of_le List.findIdx_le_length

theorem exists_drop_completed_eq (h : index ≤ endIndex tokens) : ∃ marker after,
    (completed tokens).drop index = (beforeEnd tokens).drop index ++ marker :: after ∧
      marker.kind = .endOfInput := by
  obtain ⟨marker, after, whole, kind⟩ := exists_completed_eq tokens
  refine ⟨marker, after, ?_, kind⟩
  rw [whole, List.drop_append_of_le_length (h.trans (length_beforeEnd tokens).ge)]

/-- Tokens that are no end markers stand in front of the first one or all behind it. -/
theorem add_length_le_endIndex {rest : List Token}
    (inside : ∀ token ∈ us, token.kind ≠ .endOfInput)
    (split : (completed tokens).drop index = us ++ rest) (h : index ≤ endIndex tokens) :
    index + us.length ≤ endIndex tokens := by
  obtain ⟨marker, after, ahead, kind⟩ := exists_drop_completed_eq h
  have fits : us.length ≤ ((beforeEnd tokens).drop index).length := by
    rw [ahead] at split
    rcases List.append_eq_append_iff.1 split with ⟨beyond, rfl, marked⟩ | ⟨short, read, -⟩
    · cases beyond with
      | nil => simp
      | cons token beyond =>
        obtain ⟨rfl, -⟩ := List.cons.inj marked
        exact absurd kind (inside marker (by simp))
    · rw [read, List.length_append]
      exact Nat.le_add_right _ _
  rw [List.length_drop, length_beforeEnd] at fits
  omega

/-- To read tokens is to move to a later index, and not from one side of the first
end marker to the other. -/
theorem exists_eq_inFront {stop : Cursor} (nonempty : us ≠ [])
    (inside : ∀ token ∈ us, token.kind ≠ .endOfInput)
    (h : Cursor.inFront tokens index nesting = stop.behind us) :
    ∃ later, index < later ∧ (index ≤ endIndex tokens → later ≤ endIndex tokens) ∧
      stop = .inFront tokens later nesting := by
  obtain ⟨rest, endPosition, depth⟩ := stop
  obtain ⟨here, rfl, rfl⟩ := Cursor.mk.inj h
  have positive : 0 < us.length := List.length_pos_iff.2 nonempty
  refine ⟨index + us.length, Nat.lt_add_of_pos_right positive,
    add_length_le_endIndex inside here, ?_⟩
  have behind : rest = (completed tokens).drop (index + us.length) := by
    rw [← List.drop_drop, here, List.drop_left]
  rw [behind]
  rfl

/-- Whatever the number of activations, a parser that succeeds moves on, at the furthest to
the first end marker, and closes what it opened. -/
theorem parser_advances {activations : Nat} {category : Category} {stop : Cursor}
    (h : parser (conditional activations) category (.inFront tokens index nesting) =
      .ok (e, stop)) :
    ∃ later, index < later ∧ (index ≤ endIndex tokens → later ≤ endIndex tokens) ∧
      stop = .inFront tokens later nesting := by
  obtain ⟨us, start, derives⟩ :=
    (reads_category_conditional activations category
      (.inFront tokens index nesting)).exists_of_eq_ok h
  exact exists_eq_inFront derives.ne_nil derives.kind_ne_endOfInput start

/-- With more activations than levels that may still be opened, none is missing. -/
theorem parseWithin_eq_parse {activations : Nat} (enough : maxNesting < activations)
    (tokens : List Token) : parseWithin activations tokens = parse tokens := by
  rw [parse_eq_parseWithin]
  exact parseWithin_congr (.inr enough) (.inr (Nat.lt_succ_self maxNesting))

/-- The whole run leads from the first token to the end, and closes all that it opened. -/
theorem conditional_of_parse_eq_ok (h : parse tokens = .ok e) :
    conditional (maxNesting + 1) (.inFront tokens 0 0) =
      .ok (e, .inFront tokens (endIndex tokens) 0) := by
  rw [parse_eq_parseWithin] at h
  obtain ⟨stop, run, ended⟩ := exists_of_parseWithin_eq_ok h
  have category : parser (conditional maxNesting) .conditional (.inFront tokens 0 0) =
      .ok (e, stop) :=
    run
  obtain ⟨later, -, within, rfl⟩ := parser_advances category
  have within := within (Nat.zero_le _)
  have behind := beforeEnd_of_next?_eq_none ended
  obtain ⟨marker, after, ahead, kind⟩ := exists_drop_completed_eq within
  have inside : ∀ token ∈ (beforeEnd tokens).drop later, token.kind ≠ .endOfInput :=
    fun token member =>
      kind_ne_endOfInput_of_mem_beforeEnd token (List.mem_of_mem_drop member)
  rw [Cursor.inFront, ahead, beforeEnd_append inside, List.append_eq_nil_iff,
    List.drop_eq_nil_iff, length_beforeEnd] at behind
  rwa [Nat.le_antisymm within behind.1] at run

/-! ## Tokens that take every activation -/

/-- What a primary fails with is what every category fails with, unless an operator
stands in front of it. -/
theorem parser_eq_error_of_primary {sub : ParseM Expr} {start : Cursor}
    (plain : ∀ token ∈ start.next?, unaryOp? token = none)
    (failed : primary sub start = .error fault) (category : Category) :
    parser sub category start = .error fault := by
  induction category using Category.tighter_induction with
  | primary => exact failed
  | loosen category hne ih =>
    cases category with
    | primary => exact failed
    | unary => exact (unary_of_none plain).trans ih
    | _ => exact bind_error ih _

/-- Behind as many opening parentheses as there are activations one more is called for. -/
theorem conditional_of_parens {opening : List Token}
    (parens : ∀ token ∈ opening, token.kind = .leftParen) {stop : Cursor}
    (shallow : stop.nesting + opening.length ≤ maxNesting) :
    conditional opening.length (stop.behind opening) =
      .error (.parse .tooManyActivations stop.position) := by
  induction opening generalizing stop with
  | nil => rfl
  | cons left opening ih =>
    obtain ⟨kind, parens⟩ := List.forall_mem_cons.1 parens
    have deeper : stop.deeper.nesting + opening.length ≤ maxNesting := by
      rw [List.length_cons] at shallow
      rw [Cursor.nesting_deeper]
      omega
    have inner := ih parens deeper
    have room : (stop.behind opening).nesting < maxNesting := by
      rw [List.length_cons] at shallow
      rw [Cursor.nesting_behind]
      omega
    have front : stop.behind (left :: opening) = (stop.behind opening).behind [left] := by
      rw [Cursor.behind_behind]
      rfl
    have inside : left.kind ≠ .endOfInput := by simp [kind]
    rw [front]
    refine parser_eq_error_of_primary ?_ ?_ .conditional
    · simp [Cursor.next?_behind_cons inside, unaryOp?, Token.isOperator, kind]
    · rw [primary, peek_bind]
      simp only [Cursor.next?_behind_cons inside, kind, advance_bind inside]
      rw [enter_bind_of_lt room]
      exact bind_error inner _

/-- An expression stays the same in parentheses, however many. -/
theorem Derives.parens_replicate {left right : Token} (hleft : left.kind = .leftParen)
    (hright : right.kind = .rightParen) (h : Derives .conditional room us e) (n : Nat) :
    Derives .conditional (room + n)
      (List.replicate n left ++ (us ++ List.replicate n right)) e := by
  induction n with
  | zero => simpa using h
  | succ n ih =>
    have outer : List.replicate (n + 1) left ++ (us ++ List.replicate (n + 1) right) =
        left :: ((List.replicate n left ++ (us ++ List.replicate n right)) ++ [right]) := by
      rw [@List.replicate_succ _ left, @List.replicate_succ' n _ right]
      simp only [List.cons_append, List.append_assoc]
    rw [outer]
    exact (Derives.parens hleft hright ih).loosest

/-- In as many parentheses as may stand around it, an expression takes one activation more
than there are parentheses. -/
theorem parens_take_every_activation {left right : Token} (hleft : left.kind = .leftParen)
    (hright : right.kind = .rightParen) (h : Derives .conditional room us e) {n : Nat}
    (full : room + n = maxNesting) :
    let tokens := List.replicate n left ++ (us ++ List.replicate n right)
    parse tokens = .ok e ∧
      ∃ position, parseWithin n tokens = .error (.parse .tooManyActivations position) := by
  intro tokens
  have derives : Derives .conditional maxNesting tokens e :=
    full ▸ h.parens_replicate hleft hright n
  have unmarked : beforeEnd tokens = tokens := beforeEnd_eq_self derives.kind_ne_endOfInput
  obtain ⟨added, whole⟩ := exists_completed_eq_append tokens
  let inside : Cursor :=
    { Cursor.ofTokens tokens with rest := (us ++ List.replicate n right) ++ added }
  have start : Cursor.ofTokens tokens = inside.behind (List.replicate n left) := by
    rw [List.append_assoc] at whole
    exact congrArg (fun rest => { Cursor.ofTokens tokens with rest }) whole
  have parens : ∀ token ∈ List.replicate n left, token.kind = .leftParen :=
    fun token member => (List.eq_of_mem_replicate member).symm ▸ hleft
  have shallow : inside.nesting + (List.replicate n left).length ≤ maxNesting := by
    rw [List.length_replicate, ← full]
    exact Nat.add_le_add_right (Nat.zero_le room) n
  have exhausted := conditional_of_parens parens shallow
  rw [← start, List.length_replicate] at exhausted
  refine ⟨parse_eq_ok_of_derives (unmarked.symm ▸ derives), inside.position, ?_⟩
  obtain ⟨token, rest, front⟩ := List.exists_cons_of_ne_nil derives.ne_nil
  have named : token.kind ≠ .endOfInput := derives.kind_ne_endOfInput token (by simp [front])
  have first : (Cursor.ofTokens tokens).next? = some token := by
    rw [Cursor.next?_eq_some_iff]
    refine ⟨named, ?_⟩
    rw [Cursor.next, Cursor.ofTokens, whole, front, List.cons_append, List.headD_cons]
  simp only [parseWithin, first, exhausted]

/-! ## The bound -/

/-- No more than 65 conditionals are ever open inside one another: a parser that gives up
at one more never does, on any tokens. Every parser inside it that succeeds has moved on,
at the furthest to the first end marker, with as many levels open as it found. -/
theorem recursion_bounded (tokens : List Token) :
    (∀ activations, 65 ≤ activations → parseWithin activations tokens = parse tokens) ∧
    (∀ position, parse tokens ≠ .error (.parse .tooManyActivations position)) ∧
    (∀ activations category index nesting e stop,
      parser (conditional activations) category (.inFront tokens index nesting) =
        .ok (e, stop) →
        ∃ later, index < later ∧ (index ≤ endIndex tokens → later ≤ endIndex tokens) ∧
          stop = .inFront tokens later nesting) ∧
    ∀ e, parse tokens = .ok e →
      conditional 65 (.inFront tokens 0 0) =
        .ok (e, .inFront tokens (endIndex tokens) 0) := by
  refine ⟨fun activations enough => parseWithin_eq_parse enough tokens, ?_,
    fun _ _ _ _ _ _ => parser_advances, fun _ => conditional_of_parse_eq_ok⟩
  intro position failed
  obtain ⟨cause, place, found, enough⟩ := exists_of_parse_eq_error failed
  cases found
  exact enough rfl

-- In 64 parentheses a name is read with 65 activations, up to the end of the
-- tokens, and not with 64.
theorem recursion_bounded_parens :
    let tokens : List Token := List.replicate 64 ⟨.leftParen, "(", 0⟩ ++
      ([⟨.identifier, "x", 64⟩] ++ List.replicate 64 ⟨.rightParen, ")", 65⟩)
    let stop : Cursor := .inFront tokens (endIndex tokens) 0
    65 ≤ 65 ∧ parseWithin 65 tokens = parse tokens ∧ parse tokens = .ok (.identifier "x") ∧
      parser (conditional 64) .conditional (.inFront tokens 0 0) =
        .ok (.identifier "x", stop) ∧
      (∃ later, 0 < later ∧ later ≤ endIndex tokens ∧ stop = .inFront tokens later 0) ∧
      ∃ position, parseWithin 64 tokens = .error (.parse .tooManyActivations position) := by
  intro tokens stop
  have name : Derives .conditional 0 [⟨.identifier, "x", 64⟩] (.identifier "x") :=
    (Derives.identifier rfl).of_primary .conditional
  obtain ⟨parsed, exhausted⟩ := @parens_take_every_activation _ _ _ ⟨.leftParen, "(", 0⟩
    ⟨.rightParen, ")", 65⟩ rfl rfl name 64 rfl
  obtain ⟨enough, -, advances, whole⟩ := recursion_bounded tokens
  have run : parser (conditional 64) .conditional (.inFront tokens 0 0) =
      .ok (.identifier "x", stop) :=
    whole _ parsed
  obtain ⟨later, moved, within, there⟩ := advances 64 .conditional 0 0 _ _ run
  exact ⟨Nat.le_refl 65, enough 65 (Nat.le_refl 65), parsed, run,
    ⟨later, moved, within (Nat.zero_le _), there⟩, exhausted⟩

end GuardedExpr
