import GuardedExpr.Proofs.Admission.Run

/-!
# Calls in any order

When calls do not come in the order of time, the queue is not sorted. Stale admissions may
stand behind fresh ones and stay, so the queue may hold more than what counts. It never
lets go of too much: what has left it was expired at some call, and so it is expired at the
largest instant that a call brought. The limit holds for the queue, and so for all
admissions that count at that instant.
-/

namespace GuardedExpr.Admission

/-- The largest instant of a call since the last reset. -/
def latest : List Event → Nat
  | [] => 0
  | .call now :: earlier => max now (latest earlier)
  | .reset :: _ => 0

section

variable {limit window : Nat} {events : List Event}

theorem le_latest_of_mem_admissions :
    ∀ instant ∈ admissions limit window events, instant ≤ latest events := by
  induction events with
  | nil => exact List.forall_mem_nil _
  | cons event earlier ih =>
    cases event with
    | reset => exact List.forall_mem_nil _
    | call now =>
      have before : ∀ instant ∈ admissions limit window earlier,
          instant ≤ max now (latest earlier) :=
        fun instant made => Nat.le_trans (ih instant made) (Nat.le_max_right _ _)
      rw [admissions, latest]
      split
      · exact List.forall_mem_cons.2 ⟨Nat.le_max_left _ _, before⟩
      · exact before

theorem le_latest_of_mem_admitted :
    ∀ instant ∈ (after limit window events).admitted, instant ≤ latest events :=
  fun instant queued =>
  le_latest_of_mem_admissions instant
    (List.mem_reverse.1 ((admitted_sublist events).mem queued))

/-- Whether an admission at `instant` is younger than the window at `now`. -/
def isFresh (window now instant : Nat) : Bool :=
  now < instant + window

/-- What has expired at a call is not fresh at that instant or later. An instant that lies
ahead of the call expires only in an empty window, where nothing is fresh. -/
theorem not_isFresh_of_expired {now top instant : Nat} (hnow : now ≤ top)
    (hinstant : instant ≤ top) (h : expired window now instant = true) :
    isFresh window top instant = false := by
  rw [expired, decide_eq_true_eq] at h
  rw [isFresh, decide_eq_false_iff_not]
  omega

/-- Dropping what expired at the front of a queue keeps all that is fresh. -/
theorem filter_dropWhile_expired {now top : Nat} (hnow : now ≤ top) {queue : List Nat}
    (hqueue : ∀ instant ∈ queue, instant ≤ top) :
    (queue.dropWhile (expired window now)).filter (isFresh window top) =
      queue.filter (isFresh window top) := by
  induction queue with
  | nil => rfl
  | cons oldest queue ih =>
    obtain ⟨holdest, hqueue⟩ := List.forall_mem_cons.1 hqueue
    cases front : expired window now oldest with
    | false => rw [List.dropWhile_cons_of_neg (by rw [front]; exact Bool.false_ne_true)]
    | true =>
      have stale := not_isFresh_of_expired hnow holdest front
      rw [List.dropWhile_cons_of_pos front, ih hqueue,
        List.filter_cons_of_neg (by rw [stale]; exact Bool.false_ne_true)]

/-- No admission that is fresh at the largest instant so far, or will be at a larger
one, has left the queue. -/
theorem filter_isFresh_admitted {top : Nat} (htop : latest events ≤ top) :
    (after limit window events).admitted.filter (isFresh window top) =
      (admissions limit window events).reverse.filter (isFresh window top) := by
  induction events with
  | nil => rfl
  | cons event earlier ih =>
    cases event with
    | reset => rfl
    | call now =>
      obtain ⟨hnow, hearlier⟩ := Nat.max_le.1 htop
      have kept :
          ((after limit window earlier).expire now).admitted.filter (isFresh window top) =
          (after limit window earlier).admitted.filter (isFresh window top) := by
        show ((after limit window earlier).admitted.dropWhile _).filter _ = _
        rw [window_after]
        exact filter_dropWhile_expired hnow fun instant queued =>
          Nat.le_trans (le_latest_of_mem_admitted instant queued) hearlier
      rw [after, step, admitted_request, reverse_admissions_call, List.filter_append,
        List.filter_append, kept, ih hearlier]
      rfl

/-- One request keeps the queue within the limit. -/
theorem length_admitted_request_le {admission : Admission}
    (h : admission.admitted.length ≤ admission.limit) (now : Nat) :
    (admission.request now).2.admitted.length ≤ admission.limit := by
  have shorter : (admission.expire now).admitted.length ≤ admission.admitted.length :=
    (List.dropWhile_sublist _).length_le
  rw [admitted_request, List.length_append, request_fst]
  by_cases room : (admission.expire now).admitted.length < admission.limit
  · rw [decide_eq_true room]
    exact room
  · rw [decide_eq_false room]
    exact Nat.le_trans shorter h

theorem inWindow_after_le (events : List Event) :
    (after limit window events).inWindow ≤ limit := by
  induction events with
  | nil => exact Nat.zero_le limit
  | cons event earlier ih =>
    cases event with
    | reset => exact Nat.zero_le limit
    | call now =>
      have within : (after limit window earlier).admitted.length ≤
          (after limit window earlier).limit := by
        rwa [limit_after]
      have next := length_admitted_request_le within now
      rwa [limit_after] at next

end

/-- Whatever the order of the calls, the admissions since the last reset that are younger
than the window at the largest instant so far are all in the queue, in their order, and the
queue is no longer than the limit. -/
theorem fresh_admissions_queued (limit window : Nat) (events : List Event) :
    let made := admissions limit window events
    let state := after limit window events
    let fresh := fun instant => decide (latest events < instant + window)
    made.countP fresh ≤ limit ∧
      state.admitted.filter fresh = (made.filter fresh).reverse ∧
      made.countP fresh ≤ state.inWindow ∧ state.inWindow ≤ limit := by
  intro made state fresh
  have queued : state.admitted.filter fresh = (made.filter fresh).reverse := by
    rw [← List.filter_reverse]
    exact filter_isFresh_admitted (Nat.le_refl _)
  have counted : made.countP fresh ≤ state.inWindow := by
    rw [List.countP_eq_length_filter, ← List.length_reverse, ← queued]
    exact List.length_filter_le fresh state.admitted
  have bounded : state.inWindow ≤ limit := inWindow_after_le events
  exact ⟨Nat.le_trans counted bounded, queued, counted, bounded⟩

-- The admission at 0 has expired at 2000, and stays behind the one at
-- 1500 that came before it.
example : (after 3 1000 [.call 2000, .call 0, .call 1500]).admitted = [1500, 0, 2000] := by
  decide

end GuardedExpr.Admission
