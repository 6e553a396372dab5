import GuardedExpr.Proofs.Parse.Outcome

/-!
# How far a parser looks ahead

A parser reads some tokens and looks at the next one, and what stands behind that makes no
difference to it. `Settled good bad p start` says so of the run of `p` from `start`, and
with it what holds of the tokens that are read: `good` of those up to where the parser
succeeds, `bad` of those up to where it fails. Runs are chained by `Settled.bind`.

Nothing is said of a parser that fails for want of room: it may do so in front of a token
that could well come next.
-/

namespace GuardedExpr

/-- The same place in front of other tokens. -/
def Cursor.instead (cursor : Cursor) (rest : List Token) (endPosition : Nat) : Cursor :=
  { cursor with rest, endPosition }

@[simp] theorem Cursor.rest_instead (cursor : Cursor) (rest : List Token)
    (endPosition : Nat) :
    (cursor.instead rest endPosition).rest = rest := rfl

@[simp] theorem Cursor.next?_instead (cursor : Cursor) (rest : List Token)
    (endPosition : Nat) :
    (cursor.instead rest endPosition).next? = rest.head?.bind Token.named? :=
  next?_eq _

@[simp] theorem Cursor.nesting_instead (cursor : Cursor) (rest : List Token)
    (endPosition : Nat) :
    (cursor.instead rest endPosition).nesting = cursor.nesting := rfl

namespace Parse

/-- The fault of a parser that may open no more levels or conditionals,
whatever the tokens are. -/
def OutOfRoom (fault : Fault) : Prop :=
  ∃ position, fault = .parse (.nestedTooDeep maxNesting) position ∨
    fault = .parse .tooManyActivations position

/-- The run of a parser from a place depends only on the tokens `us` up to where it
ends and on the next one. -/
def Settled {α : Type} (good : α → List Token → Cursor → Prop)
    (bad : List Token → Cursor → Fault → Prop) (p : ParseM α) (start : Cursor) : Prop :=
  match p start with
  | .ok (a, stop) => ∃ us, start.rest = us ++ stop.rest ∧
    stop.endPosition = start.endPosition ∧
      good a us stop ∧ ∀ rest endPosition, rest.head?.bind Token.named? = stop.next? →
        p (start.instead (us ++ rest) endPosition) = .ok (a, stop.instead rest endPosition)
  | .error fault => OutOfRoom fault ∨
      ∃ us stop, start.rest = us ++ stop.rest ∧ stop.endPosition = start.endPosition ∧
        bad us stop fault ∧ ∀ rest endPosition, rest.head?.bind Token.named? = stop.next? →
          ∃ fault', p (start.instead (us ++ rest) endPosition) = .error fault'

namespace Settled

variable {α β : Type} {good : α → List Token → Cursor → Prop}
  {good' : β → List Token → Cursor → Prop}
  {bad bad' : List Token → Cursor → Fault → Prop} {p q : ParseM α}
  {start : Cursor}

theorem mono {good' : α → List Token → Cursor → Prop} (h : Settled good bad p start)
    (hgood : ∀ a us stop, good a us stop → good' a us stop)
    (hbad : ∀ us stop fault, bad us stop fault → bad' us stop fault) :
    Settled good' bad' p start := by
  rw [Settled] at h ⊢
  cases hp : p start with
  | error fault =>
    rw [hp] at h
    rcases h with room | ⟨us, stop, split, same, there, alike⟩
    · exact .inl room
    · exact .inr ⟨us, stop, split, same, hbad us stop fault there, alike⟩
  | ok result =>
    rw [hp] at h
    obtain ⟨us, split, same, there, alike⟩ := h
    exact ⟨us, split, same, hgood _ us _ there, alike⟩

/-- A parser that reads some tokens and then does the same as another one behind them. -/
theorem follow (read : List Token) (place : Cursor) (rest : start.rest = read ++ place.rest)
    (endPosition : place.endPosition = start.endPosition)
    (same : ∀ rest endPosition, rest.head?.bind Token.named? = place.next? →
      p (start.instead (read ++ rest) endPosition) = q (place.instead rest endPosition))
    (h : Settled (fun a us => good a (read ++ us)) (fun us => bad (read ++ us)) q place) :
    Settled good bad p start := by
  have here : p start = q place := by
    have run := same place.rest place.endPosition place.next?_eq.symm
    rw [← rest] at run
    conv at run => lhs; rw [endPosition]
    exact run
  have seam : ∀ {us further : List Token} {last : Cursor}, place.rest = us ++ last.rest →
      further.head?.bind Token.named? = last.next? →
      (us ++ further).head?.bind Token.named? = place.next? := by
    intro us further last split next
    rw [place.next?_eq, split]
    cases us with
    | nil => exact next.trans last.next?_eq
    | cons token us => rfl
  rw [Settled] at h ⊢
  rw [here]
  cases hq : q place with
  | error fault =>
    rw [hq] at h
    rcases h with room | ⟨us, stop, split, last, there, alike⟩
    · exact .inl room
    · refine .inr ⟨read ++ us, stop, ?_, last.trans endPosition, there,
        fun further endPosition next => ?_⟩
      · rw [rest, split, List.append_assoc]
      · rw [List.append_assoc, same _ endPosition (seam split next)]
        exact alike further endPosition next
  | ok result =>
    rw [hq] at h
    obtain ⟨us, split, last, there, alike⟩ := h
    refine ⟨read ++ us, ?_, last.trans endPosition, there,
      fun further endPosition next => ?_⟩
    · rw [rest, split, List.append_assoc]
    · rw [List.append_assoc, same _ endPosition (seam split next)]
      exact alike further endPosition next

/-- Parsers in a row. What the first one looks at is what the second one reads,
if it reads anything. -/
theorem bind {f : α → ParseM β} (hp : Settled good bad p start)
    (hbad : ∀ us stop fault, bad us stop fault → bad' us stop fault)
    (hf : ∀ a us stop, start.rest = us ++ stop.rest → good a us stop →
      Settled (fun b vs => good' b (us ++ vs)) (fun vs => bad' (us ++ vs)) (f a) stop) :
    Settled good' bad' (p >>= f) start := by
  rw [Settled] at hp
  cases h : p start with
  | error fault =>
    rw [h] at hp
    rw [Settled, bind_error h]
    rcases hp with room | ⟨us, stop, split, same, there, alike⟩
    · exact .inl room
    · refine .inr ⟨us, stop, split, same, hbad us stop fault there,
        fun rest endPosition next => ?_⟩
      obtain ⟨fault', failed⟩ := alike rest endPosition next
      exact ⟨fault', bind_error failed f⟩
  | ok result =>
    obtain ⟨a, stop⟩ := result
    rw [h] at hp
    obtain ⟨us, split, same, there, alike⟩ := hp
    refine follow us stop split same (fun rest endPosition next => ?_)
      (hf a us stop split there)
    exact bind_ok (alike rest endPosition next) f

theorem congr (same : ∀ rest endPosition, rest.head?.bind Token.named? = start.next? →
      p (start.instead rest endPosition) = q (start.instead rest endPosition))
    (h : Settled good bad q start) : Settled good bad p start :=
  follow [] start rfl rfl same h

/-- A parser that reads the next token and then does the same as another one behind it. -/
theorem of_token {token : Token} {stop : Cursor}
    (same : ∀ rest endPosition, p ((stop.instead rest endPosition).behind [token]) =
      q (stop.instead rest endPosition))
    (h : Settled (fun a us => good a (token :: us)) (fun us => bad (token :: us)) q stop) :
    Settled good bad p (stop.behind [token]) :=
  follow [token] stop rfl rfl (fun rest endPosition _ => same rest endPosition) h

/-! ## Single steps -/

theorem pure {a : α} (h : good a [] start) : Settled good bad (pure a) start :=
  ⟨[], rfl, rfl, h, fun _ _ _ => rfl⟩

/-- A parser that fails at once, and does so wherever the same token is next. -/
theorem of_error {fault : Fault} (failed : p start = .error fault) (h : bad [] start fault)
    (alike : ∀ rest endPosition, rest.head?.bind Token.named? = start.next? →
      ∃ fault', p (start.instead rest endPosition) = .error fault') :
    Settled good bad p start := by
  rw [Settled, failed]
  exact .inr ⟨[], start, rfl, rfl, h, alike⟩

theorem of_outOfRoom {fault : Fault} (failed : p start = .error fault)
    (h : OutOfRoom fault) :
    Settled good bad p start := by
  rw [Settled, failed]
  exact .inl h

theorem fail {cause : ParseCause} (h : bad [] start (.parse cause start.position)) :
    Settled good bad (fail cause) start :=
  of_error rfl h fun _ _ _ => ⟨_, rfl⟩

theorem failAt {cause : ParseCause} {position : Nat}
    (h : bad [] start (.parse cause position)) :
    Settled good bad (failAt position cause) start :=
  of_error rfl h fun _ _ _ => ⟨_, rfl⟩

theorem peek_bind {f : Option Token → ParseM α}
    (h : Settled good bad (f start.next?) start) :
    Settled good bad (peek >>= f) start := by
  refine h.congr fun rest endPosition next => ?_
  rw [Parse.peek_bind, Cursor.next?_instead, next]

theorem advance_bind {f : Unit → ParseM α} {token : Token} {stop : Cursor}
    (inside : token.kind ≠ .endOfInput)
    (h : Settled (fun a us => good a (token :: us)) (fun us => bad (token :: us))
      (f ()) stop) :
    Settled good bad (advance >>= f) (stop.behind [token]) :=
  of_token (fun _ _ => Parse.advance_bind inside f _) h

theorem accept_bind {wanted : Token → Bool} {f : Bool → ParseM α}
    (yes : ∀ token stop, start = stop.behind [token] → wanted token = true →
      Settled (fun a us => good a (token :: us)) (fun us => bad (token :: us)) (f true) stop)
    (no : Settled good bad (f false) start) :
    Settled good bad (accept wanted >>= f) start := by
  have stays : (∀ token ∈ start.next?, wanted token = false) →
      Settled good bad (accept wanted >>= f) start := by
    intro unwanted
    refine no.congr fun rest endPosition next => accept_bind_of_eq_false ?_ f
    rwa [Cursor.next?_instead, next]
  cases next : start.next? with
  | none => exact stays (by simp [next])
  | some token =>
    cases h : wanted token with
    | false => exact stays (by simpa [next] using h)
    | true =>
      obtain ⟨inside, stop, rfl⟩ := Cursor.eq_behind_of_next? next
      exact of_token (fun _ _ => accept_bind_of_eq_true inside h f _) (yes token stop rfl h)

theorem enter_bind {f : Unit → ParseM α}
    (h : start.nesting < maxNesting → Settled good bad (f ()) start.deeper) :
    Settled good bad (enter >>= f) start := by
  rcases Nat.lt_or_ge start.nesting maxNesting with room | full
  · have same : ∀ rest endPosition,
        (enter >>= f) (start.instead rest endPosition) =
          f () (start.deeper.instead rest endPosition) := by
      intro rest endPosition
      have inside : (start.instead rest endPosition).nesting < maxNesting := room
      exact enter_bind_of_lt inside f
    exact follow [] start.deeper rfl rfl (fun rest endPosition _ =>
      same rest endPosition) (h room)
  · exact of_outOfRoom (enter_bind_of_le full f) ⟨_, .inl rfl⟩

theorem leave_bind {f : Unit → ParseM α}
    (h : Settled good bad (f ()) { start with nesting := start.nesting - 1 }) :
    Settled good bad (leave >>= f) start :=
  follow [] _ rfl rfl (fun _ _ _ => rfl) h

end Settled

end Parse

end GuardedExpr
