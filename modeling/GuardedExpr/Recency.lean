import GuardedExpr.Entries

/-!
# A store of the most recent

A bounded store that forgets the entry that was used least recently. Entries stand in the
order of their last use, the oldest first. Finding a key and putting one count as uses; a
key that is not found does not.
-/

namespace GuardedExpr

/-- How often keys were found, not found, and forgotten for lack of room. -/
structure Recency.Stats where
  hits : Nat := 0
  misses : Nat := 0
  evictions : Nat := 0
deriving DecidableEq, Repr

structure Recency (α : Type) where
  capacity : Nat
  /-- The entries, the least recently used first. -/
  entries : Entries α := []
  stats : Recency.Stats := {}

namespace Recency

variable {α : Type}

/-- The capacity of a store when none is asked for. -/
def defaultCapacity : Nat := 100

def empty (capacity : Nat) : Recency α where
  capacity

def size (store : Recency α) : Nat :=
  store.entries.length

def isEmpty (store : Recency α) : Bool :=
  store.entries.isEmpty

/-- Whether a key is present. Asking is no use of it. -/
def contains (store : Recency α) (key : String) : Bool :=
  (store.entries.lookup key).isSome

def without (key : String) (entries : Entries α) : Entries α :=
  entries.filter fun entry => entry.1 != key

/-- Looks a key up. A key that is found becomes the most recently used. -/
def get (store : Recency α) (key : String) : Option α × Recency α :=
  match store.entries.lookup key with
  | some value =>
    (some value, { store with
      entries := without key store.entries ++ [(key, value)]
      stats := { store.stats with hits := store.stats.hits + 1 } })
  | none =>
    (none, { store with stats := { store.stats with misses := store.stats.misses + 1 } })

/-- Puts a value under a key, which becomes the most recently used. A new key in a full store
takes the place of the least recently used one. A store without capacity keeps nothing. -/
def put (store : Recency α) (key : String) (value : α) : Recency α :=
  if store.capacity = 0 then store
  else if store.contains key then
    { store with entries := without key store.entries ++ [(key, value)] }
  else if store.size < store.capacity then
    { store with entries := store.entries ++ [(key, value)] }
  else
    { store with
      entries := store.entries.drop 1 ++ [(key, value)]
      stats := { store.stats with evictions := store.stats.evictions + 1 } }

/-- Forgets all entries. The counts stay. -/
def clear (store : Recency α) : Recency α :=
  { store with entries := [] }

end Recency

end GuardedExpr
