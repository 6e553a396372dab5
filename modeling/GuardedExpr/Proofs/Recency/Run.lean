import GuardedExpr.Proofs.Recency.Basic

/-!
# Runs of a store

A run is a list of requests, the latest first. What is said of a run here is said from the
outside: which keys were used, what was put, and how often keys were asked for, without a
word about the order in which the store keeps its entries.
-/

namespace GuardedExpr.Recency

inductive Request (α : Type) where
  | get (key : String)
  | put (key : String) (value : α)
  | contains (key : String)
  | clear

variable {α : Type}

def Request.isGet : Request α → Bool
  | .get _ => true
  | _ => false

def perform (store : Recency α) : Request α → Recency α
  | .get key => (store.get key).2
  | .put key value => store.put key value
  | .contains _ => store
  | .clear => store.clear

/-- The store that requests leave behind. -/
def after (capacity : Nat) : List (Request α) → Recency α
  | [] => empty capacity
  | request :: earlier => (after capacity earlier).perform request

/-- The keys used since the last clear, the latest first. A key is used when it is put, and
when it is looked up and found. -/
def used (capacity : Nat) : List (Request α) → List String
  | [] => []
  | .get key :: earlier =>
    if ((after capacity earlier).get key).1.isSome then key :: used capacity earlier
    else used capacity earlier
  | .put key _ :: earlier => key :: used capacity earlier
  | .contains _ :: earlier => used capacity earlier
  | .clear :: _ => []

/-- What was last put under a key since the last clear. -/
def lastPut (key : String) : List (Request α) → Option α
  | [] => none
  | .get _ :: earlier => lastPut key earlier
  | .put name value :: earlier => if name = key then some value else lastPut key earlier
  | .contains _ :: earlier => lastPut key earlier
  | .clear :: _ => none

/-- How many keys were put while they were not present. -/
def newPuts (capacity : Nat) : List (Request α) → Nat
  | [] => 0
  | .get _ :: earlier => newPuts capacity earlier
  | .put key _ :: earlier =>
    newPuts capacity earlier + if (after capacity earlier).contains key then 0 else 1
  | .contains _ :: earlier => newPuts capacity earlier
  | .clear :: earlier => newPuts capacity earlier

/-- How many entries clears have dropped. -/
def cleared (capacity : Nat) : List (Request α) → Nat
  | [] => 0
  | .get _ :: earlier => cleared capacity earlier
  | .put _ _ :: earlier => cleared capacity earlier
  | .contains _ :: earlier => cleared capacity earlier
  | .clear :: earlier => cleared capacity earlier + (after capacity earlier).size

/-- The keys of a list of uses that come in front of a key, so the keys
used since its last use. -/
def usedSince (key : String) (uses : List String) : List String :=
  uses.takeWhile (· != key)

theorem capacity_after (capacity : Nat) (requests : List (Request α)) :
    (after capacity requests).capacity = capacity := by
  induction requests with
  | nil => rfl
  | cons request earlier ih =>
    cases request with
    | get key => exact capacity_get.trans ih
    | put key value => exact capacity_put.trans ih
    | contains key => exact ih
    | clear => exact ih

/-- Every look-up is a hit or a miss. -/
theorem hits_add_misses_after (capacity : Nat) (requests : List (Request α)) :
    (after capacity requests).stats.hits + (after capacity requests).stats.misses =
      requests.countP Request.isGet := by
  induction requests with
  | nil => rfl
  | cons request earlier ih =>
    cases request with
    | get key =>
      rw [List.countP_cons_of_pos rfl, ← ih]
      exact hits_add_misses_get
    | put key value =>
      rw [List.countP_cons_of_neg Bool.false_ne_true, ← ih]
      exact hits_add_misses_put
    | contains key => exact ih
    | clear => exact ih

end GuardedExpr.Recency
