/-!
# Entries

Named entries in the order in which their names first came. Looking a name up is
`List.lookup`; writing to a name that is present moves nothing.
-/

namespace GuardedExpr

/-- Pairs of a name and a value, in order of arrival. -/
abbrev Entries (α : Type) := List (String × α)

namespace Entries

variable {α : Type}

/-- The entries with `value` under `key`: in the place of the old value, or at the end. -/
def insert (key : String) (value : α) : Entries α → Entries α
  | [] => [(key, value)]
  | (k, v) :: entries =>
    if k = key then (k, value) :: entries else (k, v) :: insert key value entries

/-- The entries that a list of pairs makes, written one after the other. -/
def ofPairs (pairs : List (String × α)) : Entries α :=
  pairs.foldl (fun entries pair => insert pair.1 pair.2 entries) []

def keys (entries : Entries α) : List String :=
  entries.map Prod.fst

theorem lookup_cons_eq (key name : String) (value : α) (entries : Entries α) :
    List.lookup key ((name, value) :: entries) =
      if key = name then some value else entries.lookup key := by
  by_cases h : key = name
  · rw [List.lookup_cons, if_pos h, beq_iff_eq.2 h]
  · rw [List.lookup_cons, if_neg h, beq_eq_false_iff_ne.2 h]

theorem mem_of_lookup {key : String} {value : α} {entries : Entries α}
    (h : entries.lookup key = some value) : (key, value) ∈ entries := by
  obtain ⟨before, behind, split, -⟩ := List.lookup_eq_some_iff.1 h
  rw [split]
  exact List.mem_append_right before List.mem_cons_self

theorem isSome_lookup_iff {key : String} {entries : Entries α} :
    (entries.lookup key).isSome = true ↔ key ∈ entries.keys := by
  induction entries with
  | nil => simp [keys]
  | cons entry entries ih =>
    obtain ⟨name, value⟩ := entry
    rw [lookup_cons_eq, keys, List.map_cons, List.mem_cons]
    by_cases same : key = name
    · simp [same]
    · rw [if_neg same, ih]
      exact ⟨Or.inr, fun h => h.resolve_left same⟩

theorem lookup_of_mem {key : String} {value : α} {entries : Entries α}
    (h : entries.keys.Nodup) (there : (key, value) ∈ entries) :
    entries.lookup key = some value := by
  induction entries with
  | nil => cases there
  | cons entry entries ih =>
    obtain ⟨name, v⟩ := entry
    obtain ⟨fresh, distinct⟩ := List.nodup_cons.1 h
    rw [lookup_cons_eq]
    rcases List.mem_cons.1 there with same | further
    · cases same
      exact if_pos rfl
    · have present : key ∈ entries.map Prod.fst := List.mem_map_of_mem further
      have other : key ≠ name := fun same => fresh (same ▸ present)
      rw [if_neg other]
      exact ih distinct further

theorem mem_keys_of_mem {entry : String × α} {entries : Entries α} (h : entry ∈ entries) :
    entry.1 ∈ entries.keys :=
  List.mem_map_of_mem h

end Entries

end GuardedExpr
