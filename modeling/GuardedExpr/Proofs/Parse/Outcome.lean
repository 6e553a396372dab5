import GuardedExpr.Expr.Parse

/-!
# What a parser does at a cursor

`stop.behind us` is the place from which reading the tokens `us` leads to `stop`. A parser
that reads `us` starts at `stop.behind us`, so both the soundness and the completeness of a
parser are stated with it, and neither needs offsets into the tokens. No parser gets past
an end marker, so none of `us` is one.

`Outcome good bad` states both ends of a parser at once: what holds of its result and
of the place where it stops, and what holds of the fault if it fails. Outcomes are
chained by `Outcome.bind`.
-/

namespace GuardedExpr

namespace Cursor

/-- The place from which reading `us` leads to `stop`. -/
def behind (stop : Cursor) (us : List Token) : Cursor :=
  { stop with rest := us ++ stop.rest }

/-- The same place with one more level open. -/
def deeper (cursor : Cursor) : Cursor :=
  { cursor with nesting := cursor.nesting + 1 }

/-- How many levels may still be opened. -/
def room (cursor : Cursor) : Nat :=
  maxNesting - cursor.nesting

@[simp] theorem behind_nil (stop : Cursor) : stop.behind [] = stop := rfl

@[simp] theorem behind_behind (stop : Cursor) (us vs : List Token) :
    (stop.behind vs).behind us = stop.behind (us ++ vs) := by
  simp [behind]

@[simp] theorem rest_behind (stop : Cursor) (us : List Token) :
    (stop.behind us).rest = us ++ stop.rest := rfl

@[simp] theorem nesting_behind (stop : Cursor) (us : List Token) :
    (stop.behind us).nesting = stop.nesting := rfl

@[simp] theorem room_behind (stop : Cursor) (us : List Token) :
    (stop.behind us).room = stop.room := rfl

@[simp] theorem deeper_behind (stop : Cursor) (us : List Token) :
    (stop.behind us).deeper = stop.deeper.behind us := rfl

@[simp] theorem rest_deeper (cursor : Cursor) : cursor.deeper.rest = cursor.rest := rfl

@[simp] theorem nesting_deeper (cursor : Cursor) :
    cursor.deeper.nesting = cursor.nesting + 1 := rfl

theorem room_eq_succ {cursor : Cursor} (h : cursor.nesting < maxNesting) :
    cursor.room = cursor.deeper.room + 1 := by
  simp only [room, nesting_deeper]
  omega

theorem nesting_lt_of_room_eq_succ {cursor : Cursor} {n : Nat} (h : cursor.room = n + 1) :
    cursor.nesting < maxNesting := by
  simp only [room] at h
  omega

theorem room_deeper_of_eq_succ {cursor : Cursor} {n : Nat} (h : cursor.room = n + 1) :
    cursor.deeper.room = n := by
  simp only [room, nesting_deeper] at h ⊢
  omega

/-- What is read with one more level open can be read without it. -/
theorem exists_of_deeper_eq_behind {start last : Cursor} {us : List Token}
    (h : start.deeper = last.behind us) :
    ∃ stop : Cursor, start = stop.behind us ∧ last = stop.deeper := by
  refine ⟨{ last with nesting := start.nesting }, ?_⟩
  cases start
  cases last
  simp_all [deeper, behind]

/-! Every token that is read leaves fewer tokens to come. -/

section Length

variable {stop : Cursor} {us : List Token} {token : Token} {n : Nat}

theorem length_behind (stop : Cursor) (us : List Token) :
    (stop.behind us).rest.length = us.length + stop.rest.length :=
  List.length_append

theorem length_le_of_behind (h : (stop.behind us).rest.length ≤ n) : stop.rest.length ≤ n :=
  Nat.le_trans (Nat.le_add_left _ us.length) (length_behind stop us ▸ h)

theorem length_lt_of_behind (h : (stop.behind us).rest.length < n) : stop.rest.length < n :=
  Nat.lt_of_le_of_lt (length_le_of_behind (Nat.le_refl _)) h

theorem length_lt_of_token (h : (stop.behind [token]).rest.length ≤ n) :
    stop.rest.length < n :=
  h

end Length

/-! What comes next. -/

theorem next?_eq (cursor : Cursor) : cursor.next? = cursor.rest.head?.bind Token.named? := by
  rw [next?, next]
  cases cursor.rest <;> rfl

theorem next?_eq_some_iff {start : Cursor} {token : Token} :
    start.next? = some token ↔ token.kind ≠ .endOfInput ∧ start.next = token := by
  rw [next?, Token.named?]
  constructor
  · intro h
    split at h
    · cases h
    · next inside =>
      cases h
      exact ⟨inside, rfl⟩
  · rintro ⟨inside, rfl⟩
    exact if_neg inside

theorem next?_behind_cons {token : Token} (inside : token.kind ≠ .endOfInput) (stop : Cursor)
    (us : List Token) : (stop.behind (token :: us)).next? = some token :=
  next?_eq_some_iff.2 ⟨inside, rfl⟩

theorem mem_head?_of_mem_next?_behind {token : Token} {us : List Token} {stop : Cursor}
    (hne : us ≠ []) (h : token ∈ (stop.behind us).next?) : token ∈ us.head? := by
  obtain ⟨first, us, rfl⟩ := List.exists_cons_of_ne_nil hne
  obtain rfl : first = token := (next?_eq_some_iff.1 h).2
  rfl

theorem passed_behind {token : Token} (inside : token.kind ≠ .endOfInput) (stop : Cursor) :
    (stop.behind [token]).passed = stop := by
  rw [passed, next?_behind_cons inside]
  rfl

theorem position_of_next? {start : Cursor} {token : Token} (h : start.next? = some token) :
    start.position = token.position := by
  rw [position, (next?_eq_some_iff.1 h).2]

/-- A cursor stands in front of the first token to come. -/
theorem eq_behind_of_rest {start : Cursor} {token : Token} {rest : List Token}
    (h : start.rest = token :: rest) : ∃ stop : Cursor, start = stop.behind [token] := by
  refine ⟨{ start with rest }, ?_⟩
  cases start
  simp_all [behind]

theorem eq_behind_of_next? {start : Cursor} {token : Token} (h : start.next? = some token) :
    token.kind ≠ .endOfInput ∧ ∃ stop : Cursor, start = stop.behind [token] := by
  obtain ⟨inside, here⟩ := next?_eq_some_iff.1 h
  cases rest : start.rest with
  | nil =>
    rw [next, rest] at here
    exact absurd (congrArg Token.kind here).symm inside
  | cons first behind =>
    rw [next, rest] at here
    obtain rfl : first = token := here
    exact ⟨inside, eq_behind_of_rest rest⟩

theorem mem_rest_of_next? {start : Cursor} {token : Token} (h : start.next? = some token) :
    token ∈ start.rest := by
  obtain ⟨-, stop, rfl⟩ := eq_behind_of_next? h
  exact List.mem_cons_self

theorem rest_passed_subset (cursor : Cursor) : cursor.passed.rest ⊆ cursor.rest := by
  rw [passed]
  split
  · exact List.Subset.refl _
  · exact List.drop_subset 1 _

end Cursor

namespace Parse

/-- A parser succeeds as `good` says or fails as `bad` says. -/
def Outcome {α : Type} (good : α → Cursor → Prop) (bad : Fault → Prop) :
    Except Fault (α × Cursor) → Prop
  | .ok (a, stop) => good a stop
  | .error fault => bad fault

section Steps

variable {α β : Type}

/-- Parsers in a row: the second starts where the first stopped. -/
theorem bind_ok {p : ParseM α} {start stop : Cursor} {a : α} (h : p start = .ok (a, stop))
    (f : α → ParseM β) : (p >>= f) start = f a stop := by
  simp only [bind, StateT.bind, h]
  rfl

theorem bind_error {p : ParseM α} {start : Cursor} {fault : Fault}
    (h : p start = .error fault) (f : α → ParseM β) : (p >>= f) start = .error fault := by
  simp only [bind, StateT.bind, h]
  rfl

/-- Two pairs of parsers in a row do the same if the first ones do, and the second ones do
wherever the first ones stop. -/
theorem bind_congr {p q : ParseM α} {f g : α → ParseM β} {start : Cursor}
    (hpq : p start = q start)
    (hfg : ∀ a stop, q start = .ok (a, stop) → f a stop = g a stop) :
    (p >>= f) start = (q >>= g) start := by
  cases hq : q start with
  | error fault => rw [bind_error (hpq.trans hq), bind_error hq]
  | ok result => rw [bind_ok (hpq.trans hq), bind_ok hq, hfg _ _ hq]

theorem Outcome.bind {good : α → Cursor → Prop} {good' : β → Cursor → Prop}
    {bad : Fault → Prop} {p : ParseM α} {f : α → ParseM β} {start : Cursor}
    (hp : Outcome good bad (p start))
    (hf : ∀ a stop, good a stop → Outcome good' bad (f a stop)) :
    Outcome good' bad ((p >>= f) start) := by
  cases h : p start with
  | error fault =>
    rw [bind_error h]
    rwa [h] at hp
  | ok result =>
    rw [bind_ok h]
    rw [h] at hp
    exact hf _ _ hp

theorem Outcome.mono {good good' : α → Cursor → Prop} {bad : Fault → Prop}
    {result : Except Fault (α × Cursor)} (h : Outcome good bad result)
    (hgood : ∀ a stop, good a stop → good' a stop) : Outcome good' bad result := by
  cases result with
  | error fault => exact h
  | ok result => exact hgood _ _ h

@[simp] theorem pure_apply (a : α) (start : Cursor) :
    (pure a : ParseM α) start = .ok (a, start) := rfl

@[simp] theorem get_bind (f : Cursor → ParseM β) (start : Cursor) :
    (get >>= f) start = f start start := rfl

@[simp] theorem peek_bind (f : Option Token → ParseM β) (start : Cursor) :
    (peek >>= f) start = f start.next? start := rfl

theorem advance_bind {token : Token} (inside : token.kind ≠ .endOfInput)
    (f : Unit → ParseM β) (stop : Cursor) :
    (advance >>= f) (stop.behind [token]) = f () stop := by
  show f () (stop.behind [token]).passed = _
  rw [Cursor.passed_behind inside]

@[simp] theorem leave_bind (f : Unit → ParseM β) (start : Cursor) :
    (leave >>= f) start.deeper = f () start := rfl

@[simp] theorem fail_apply (cause : ParseCause) (start : Cursor) :
    (fail cause : ParseM α) start = .error (.parse cause start.position) := rfl

@[simp] theorem failAt_apply (position : Nat) (cause : ParseCause) (start : Cursor) :
    (failAt position cause : ParseM α) start = .error (.parse cause position) := rfl

theorem enter_bind_of_lt {start : Cursor} (h : start.nesting < maxNesting)
    (f : Unit → ParseM β) :
    (enter >>= f) start = f () start.deeper :=
  bind_ok (by rw [enter, if_neg (Nat.not_le.2 h)]; rfl) f

theorem enter_bind_of_le {start : Cursor} (h : maxNesting ≤ start.nesting)
    (f : Unit → ParseM β) :
    (enter >>= f) start = .error (.parse (.nestedTooDeep maxNesting) start.position) :=
  bind_error (by rw [enter, if_pos h]) f

theorem accept_bind_of_eq_true {wanted : Token → Bool} {token : Token}
    (inside : token.kind ≠ .endOfInput) (h : wanted token = true) (f : Bool → ParseM β)
    (stop : Cursor) : (accept wanted >>= f) (stop.behind [token]) = f true stop := by
  refine bind_ok ?_ f
  rw [accept, Cursor.next?_behind_cons inside, Option.any_some, if_pos h,
    Cursor.passed_behind inside]

theorem accept_bind_of_eq_false {wanted : Token → Bool} {start : Cursor}
    (h : ∀ token ∈ start.next?, wanted token = false) (f : Bool → ParseM β) :
    (accept wanted >>= f) start = f false start := by
  refine bind_ok ?_ f
  rw [accept, if_neg]
  rw [Bool.not_eq_true]
  cases next : start.next? with
  | none => rfl
  | some token => exact h token next

/-- Either the wanted token is next and is read, or the parser stays where it is. -/
theorem Outcome.accept_bind {good : β → Cursor → Prop} {bad : Fault → Prop}
    {wanted : Token → Bool} {f : Bool → ParseM β} {start : Cursor}
    (htrue : ∀ token stop, start = stop.behind [token] → wanted token = true →
      Outcome good bad (f true stop))
    (hfalse : Outcome good bad (f false start)) :
    Outcome good bad ((accept wanted >>= f) start) := by
  cases next : start.next? with
  | none => rwa [accept_bind_of_eq_false (by simp [next])]
  | some token =>
    obtain ⟨inside, stop, rfl⟩ := Cursor.eq_behind_of_next? next
    cases hw : wanted token with
    | true =>
      rw [accept_bind_of_eq_true inside hw]
      exact htrue token stop rfl hw
    | false =>
      rw [accept_bind_of_eq_false (by simpa [next] using hw)]
      exact hfalse

end Steps

end Parse

end GuardedExpr
