import GuardedExpr.Admission

/-!
# Runs of an admission window

A run is a list of calls and resets, the latest first. `after` is the state that
it leaves behind, and `admissions` are the instants of the calls that it
admitted since the last reset.
-/

namespace GuardedExpr.Admission

inductive Event where
  | call (now : Nat)
  | reset
deriving DecidableEq, Repr

def Event.instant? : Event → Option Nat
  | .call now => some now
  | .reset => none

def step (admission : Admission) : Event → Admission
  | .call now => (admission.request now).2
  | .reset => admission.reset

/-- The instants of all calls, the latest first. -/
def instants (events : List Event) : List Nat :=
  events.filterMap Event.instant?

/-- No call comes at an instant before that of an earlier call. -/
def Chronological (events : List Event) : Prop :=
  (instants events).Pairwise (· ≥ ·)

instance : DecidablePred Chronological := fun events =>
  inferInstanceAs (Decidable ((instants events).Pairwise (· ≥ ·)))

section

variable (limit window : Nat)

/-- The state that events leave behind. -/
def after : List Event → Admission
  | [] => { limit, window }
  | event :: earlier => (after earlier).step event

/-- Whether a call is admitted when it comes behind `earlier` events. -/
def admits (earlier : List Event) (now : Nat) : Bool :=
  ((after limit window earlier).request now).1

/-- The instants of the calls that were admitted since the last reset, the latest first. -/
def admissions : List Event → List Nat
  | [] => []
  | .call now :: earlier =>
    if admits limit window earlier now then now :: admissions earlier else admissions earlier
  | .reset :: _ => []

end

/-! ## One request -/

section

variable (admission : Admission) (now : Nat)

theorem request_fst :
    (admission.request now).1 =
      decide ((admission.expire now).admitted.length < admission.limit) := by
  rw [request]
  by_cases room : (admission.expire now).admitted.length < admission.limit
  · exact (congrArg Prod.fst (if_pos room)).trans (decide_eq_true room).symm
  · exact (congrArg Prod.fst (if_neg room)).trans (decide_eq_false room).symm

/-- The queue behind a request: what has not expired, and the request
itself if it is admitted. -/
theorem admitted_request :
    (admission.request now).2.admitted =
      (admission.expire now).admitted ++
        if (admission.request now).1 then [now] else [] := by
  rw [request]
  by_cases room : (admission.expire now).admitted.length < (admission.expire now).limit
  · simp only [if_pos room, if_true]
  · simp only [if_neg room, Bool.false_eq_true, if_false, List.append_nil]

/-- Nothing leaves a queue in which nothing has expired. -/
theorem expire_eq_self
    (h : ∀ instant ∈ admission.admitted, now - instant < admission.window) :
    admission.expire now = admission := by
  obtain ⟨limit, window, admitted⟩ := admission
  rw [expire]
  cases admitted with
  | nil => rfl
  | cons oldest queue =>
    have lasting : ¬ expired window now oldest = true := by
      rw [expired, decide_eq_true_eq]
      exact Nat.not_le.2 (h oldest List.mem_cons_self)
    rw [List.dropWhile_cons_of_neg lasting]

theorem limit_request : (admission.request now).2.limit = admission.limit := by
  rw [request]
  split <;> rfl

theorem window_request : (admission.request now).2.window = admission.window := by
  rw [request]
  split <;> rfl

end

/-! ## Runs -/

section

variable {limit window : Nat}

theorem limit_after (events : List Event) : (after limit window events).limit = limit := by
  induction events with
  | nil => rfl
  | cons event earlier ih =>
    cases event with
    | call now => exact (limit_request _ now).trans ih
    | reset => exact ih

theorem window_after (events : List Event) :
    (after limit window events).window = window := by
  induction events with
  | nil => rfl
  | cons event earlier ih =>
    cases event with
    | call now => exact (window_request _ now).trans ih
    | reset => exact ih

/-- The admissions since the last reset, the oldest first, with one more call. -/
theorem reverse_admissions_call (earlier : List Event) (now : Nat) :
    (admissions limit window (.call now :: earlier)).reverse =
      (admissions limit window earlier).reverse ++
        if admits limit window earlier now then [now] else [] := by
  rw [admissions]
  split
  · rw [List.reverse_cons]
  · rw [List.append_nil]

theorem admissions_sublist (events : List Event) :
    (admissions limit window events).Sublist (instants events) := by
  induction events with
  | nil => exact List.nil_sublist []
  | cons event earlier ih =>
    cases event with
    | reset => exact List.nil_sublist _
    | call now =>
      rw [admissions]
      split
      · exact ih.cons_cons now
      · exact ih.cons now

/-- The queue holds admissions only, in their order. -/
theorem admitted_sublist (events : List Event) :
    (after limit window events).admitted.Sublist
      (admissions limit window events).reverse := by
  induction events with
  | nil => exact List.nil_sublist _
  | cons event earlier ih =>
    cases event with
    | reset => exact List.nil_sublist _
    | call now =>
      have kept : ((after limit window earlier).expire now).admitted.Sublist
          (after limit window earlier).admitted := List.dropWhile_sublist _
      rw [reverse_admissions_call, after, step, admitted_request]
      exact (kept.trans ih).append (List.Sublist.refl _)

end

end GuardedExpr.Admission
