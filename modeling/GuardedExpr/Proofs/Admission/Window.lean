import GuardedExpr.Proofs.Admission.Run

/-!
# The window is exact

When calls come in the order of time, the queue holds exactly the admissions that count at
the last call, and the last call itself if it was admitted. So a call is admitted exactly
when fewer than `limit` admissions count, and no stretch of time as long as the window
holds more than `limit` admissions.
-/

namespace GuardedExpr.Admission

/-- Whether an admission at `instant` counts at `now`. -/
def counts (window now instant : Nat) : Bool :=
  now - instant < window

theorem expired_eq_not_counts (window now instant : Nat) :
    expired window now instant = !counts window now instant := by
  rw [expired, counts, ← decide_not, decide_eq_decide, Nat.not_lt]

/-- What counts at an instant counted at all instants before it. -/
theorem counts_of_le {window now later instant : Nat} (hle : now ≤ later)
    (h : counts window later instant = true) : counts window now instant = true := by
  rw [counts, decide_eq_true_eq] at h ⊢
  omega

/-- In a queue in the order of time, dropping what expired at the front
drops all that expired. -/
theorem dropWhile_expired {queue : List Nat} (h : queue.Pairwise (· ≤ ·))
    (window now : Nat) :
    queue.dropWhile (expired window now) = queue.filter (counts window now) := by
  induction queue with
  | nil => rfl
  | cons oldest queue ih =>
    obtain ⟨least, sorted⟩ := List.pairwise_cons.1 h
    rw [List.dropWhile_cons, List.filter_cons, expired_eq_not_counts]
    cases front : counts window now oldest with
    | false => exact ih sorted
    | true =>
      have behind : ∀ instant ∈ queue, counts window now instant = true := by
        intro instant hinstant
        have later : oldest ≤ instant := least instant hinstant
        rw [counts, decide_eq_true_eq] at front ⊢
        omega
      rw [List.filter_eq_self.2 behind]
      rfl

section

variable {limit window : Nat} {earlier events : List Event} {now : Nat}

theorem Chronological.of_cons {event : Event} (h : Chronological (event :: earlier)) :
    Chronological earlier := by
  cases event with
  | call now => exact (List.pairwise_cons.1 h).2
  | reset => exact h

theorem Chronological.le_of_mem (h : Chronological (.call now :: earlier)) :
    ∀ instant ∈ instants earlier, instant ≤ now :=
  (List.pairwise_cons.1 h).1

theorem Chronological.pairwise_admissions (h : Chronological events) :
    (admissions limit window events).Pairwise (· ≥ ·) :=
  h.sublist (admissions_sublist events)

theorem Chronological.pairwise_admitted (h : Chronological events) :
    (after limit window events).admitted.Pairwise (· ≤ ·) :=
  (List.pairwise_reverse.2 h.pairwise_admissions).sublist (admitted_sublist events)

theorem admitted_expire (h : Chronological events) (now : Nat) :
    ((after limit window events).expire now).admitted =
      (after limit window events).admitted.filter (counts window now) := by
  show (after limit window events).admitted.dropWhile _ = _
  rw [window_after, dropWhile_expired h.pairwise_admitted]

/-- No admission that counts now or will count later has left the queue. -/
theorem filter_admitted (h : Chronological events)
    (hnow : ∀ instant ∈ instants events, instant ≤ now) :
    (after limit window events).admitted.filter (counts window now) =
      (admissions limit window events).reverse.filter (counts window now) := by
  induction events with
  | nil => rfl
  | cons event earlier ih =>
    cases event with
    | reset => rfl
    | call last =>
      obtain ⟨hlast, hearlier⟩ := List.forall_mem_cons.1 hnow
      have kept : ∀ instant, (counts window now instant && counts window last instant) =
          counts window now instant := by
        intro instant
        rw [Bool.and_eq_left_iff_imp]
        exact counts_of_le hlast
      rw [after, step, admitted_request, admitted_expire h.of_cons, reverse_admissions_call,
        List.filter_append, List.filter_append, List.filter_filter, ← ih h.of_cons hearlier]
      simp only [kept]
      rfl

/-- What a call finds in the queue are the admissions that count at it. -/
theorem admitted_expire_eq (h : Chronological (.call now :: earlier)) :
    ((after limit window earlier).expire now).admitted =
      ((admissions limit window earlier).filter (counts window now)).reverse := by
  rw [admitted_expire h.of_cons, filter_admitted h.of_cons h.le_of_mem, List.filter_reverse]

theorem admits_eq (h : Chronological (.call now :: earlier)) :
    admits limit window earlier now =
      decide ((admissions limit window earlier).countP (counts window now) < limit) := by
  rw [admits, request_fst, admitted_expire_eq h, limit_after, List.length_reverse,
    List.countP_eq_length_filter]

theorem admitted_after_call (h : Chronological (.call now :: earlier)) :
    (after limit window (.call now :: earlier)).admitted =
      ((admissions limit window earlier).filter (counts window now)).reverse ++
        if admits limit window earlier now then [now] else [] := by
  rw [after, step, admitted_request, admitted_expire_eq h]
  rfl

/-- Whether an instant lies in the stretch of time that starts at `start`. -/
def within (window start instant : Nat) : Bool :=
  start ≤ instant && instant < start + window

/-- No stretch of time as long as the window holds more than `limit` admissions. -/
theorem countP_within_le (h : Chronological events) (start : Nat) :
    (admissions limit window events).countP (within window start) ≤ limit := by
  induction events with
  | nil => exact Nat.zero_le limit
  | cons event earlier ih =>
    cases event with
    | reset => exact Nat.zero_le limit
    | call now =>
      have before := ih h.of_cons
      rw [admissions]
      split
      case isFalse => exact before
      case isTrue admitted =>
        cases inside : within window start now with
        | false => rwa [List.countP_cons_of_neg (by simp [inside])]
        | true =>
          -- The call is the last of its stretch, so what else lies in the
          -- stretch counts at it.
          have room :
              (admissions limit window earlier).countP (counts window now) < limit := by
            rwa [admits_eq h, decide_eq_true_eq] at admitted
          have fewer : (admissions limit window earlier).countP (within window start) ≤
              (admissions limit window earlier).countP (counts window now) := by
            apply List.countP_mono_left
            intro instant _ hinstant
            simp only [within, counts, Bool.and_eq_true,
              decide_eq_true_eq] at inside hinstant ⊢
            omega
          rw [List.countP_cons_of_pos inside]
          omega

end

/-- A call is admitted exactly when fewer than `limit` admissions since the last reset
count at it. It leaves in the queue these admissions, and itself if it is admitted. So
the queue is as long as the admissions that count at the call, this one included, when
the window is not empty. -/
theorem admits_exactly {limit window : Nat} {earlier : List Event} {now : Nat}
    (h : Chronological (.call now :: earlier)) :
    let past := admissions limit window earlier
    let present := admissions limit window (.call now :: earlier)
    let admitted := admits limit window earlier now
    let next := after limit window (.call now :: earlier)
    (admitted = true ↔ past.countP (fun instant => now - instant < window) < limit) ∧
      next.admitted = (past.filter fun instant => now - instant < window).reverse ++
        (if admitted then [now] else []) ∧
      next.inWindow = past.countP (fun instant => now - instant < window) +
        (if admitted then 1 else 0) ∧
      (0 < window → next.inWindow = present.countP fun instant => now - instant < window) ∧
      ∀ start, present.countP
        (fun instant => start ≤ instant && instant < start + window) ≤ limit := by
  intro past present admitted next
  have queue : next.admitted = (past.filter (counts window now)).reverse ++
      if admitted then [now] else [] := admitted_after_call h
  have size :
      next.inWindow = past.countP (counts window now) + if admitted then 1 else 0 := by
    rw [inWindow, queue, List.length_append, List.length_reverse,
      List.countP_eq_length_filter]
    cases admitted <;> rfl
  refine ⟨?_, queue, size, ?_, countP_within_le h⟩
  · show admits limit window earlier now = true ↔ _
    rw [admits_eq h, decide_eq_true_eq]
    rfl
  · intro positive
    have itself : counts window now now = true := by
      rw [counts, Nat.sub_self]
      exact decide_eq_true positive
    have added : present.countP (counts window now) =
        past.countP (counts window now) + if admitted then 1 else 0 := by
      show (admissions limit window (.call now :: earlier)).countP _ = _
      rw [admissions]
      show (if admitted = true then _ else _ : List Nat).countP _ = _
      cases admitted with
      | false => rfl
      | true => exact List.countP_cons_of_pos itself
    rw [size, ← added]
    rfl

-- Of the calls before, the second refuses the third. At the last call the first
-- one has just expired.
theorem admits_exactly_two_per_second :
    let earlier : List Event := [.call 999, .call 500, .call 0]
    Chronological (.call 1000 :: earlier) ∧ admits 2 1000 earlier 1000 = true ∧
      (after 2 1000 (.call 1000 :: earlier)).admitted = [500, 1000] ∧
      ∀ start, (admissions 2 1000 (.call 1000 :: earlier)).countP
        (fun instant => start ≤ instant && instant < start + 1000) ≤ 2 := by
  intro earlier
  have ordered : Chronological (.call 1000 :: earlier) := by decide
  have exactly := @admits_exactly 2 1000 earlier 1000 ordered
  exact ⟨ordered, exactly.1.2 (by decide), exactly.2.1.trans (by decide), exactly.2.2.2.2⟩

/-- An admission in an empty window stays in the queue until the next call, although it
does not count even at its own instant. -/
theorem inWindow_ne_of_empty_window :
    Chronological [.call 0] ∧ admits 1 0 [] 0 = true ∧
      (after 1 0 [.call 0]).inWindow ≠
        (admissions 1 0 [.call 0]).countP fun instant => 0 - instant < 0 := by
  decide

end GuardedExpr.Admission
