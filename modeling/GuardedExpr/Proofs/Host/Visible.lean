import GuardedExpr.Host.Sanitize

/-!
# What is kept of a map and of a list

The visible entries of a map are the first 50 under safe keys. When no key comes twice,
a kept map has under each key what the visible entry sanitizes to, and a kept list has
each element in its place.
-/

namespace GuardedExpr

/-- The entries that are looked at. -/
def visibleEntries (entries : List (String × RawValue)) : List (String × RawValue) :=
  (entries.filter fun entry => isSafeKey entry.1).take maxMapKeys

namespace RawValue

mutual

/-- No map in the data has a key twice, as is so of all maps that a host can build. -/
def KeysUnique : RawValue → Prop
  | .list items => ItemsKeysUnique items
  | .map entries => EntriesKeysUnique entries
  | _ => True

def ItemsKeysUnique : List RawValue → Prop
  | [] => True
  | item :: items => item.KeysUnique ∧ ItemsKeysUnique items

def EntriesKeysUnique : List (String × RawValue) → Prop
  | [] => True
  | (key, value) :: entries =>
    key ∉ entries.map Prod.fst ∧ value.KeysUnique ∧ EntriesKeysUnique entries

end

theorem ItemsKeysUnique.of_mem {items : List RawValue} {item : RawValue}
    (h : ItemsKeysUnique items) (hitem : item ∈ items) : item.KeysUnique := by
  induction items with
  | nil => cases hitem
  | cons first items ih =>
    obtain ⟨hfirst, hitems⟩ := h
    rcases List.mem_cons.1 hitem with rfl | later
    · exact hfirst
    · exact ih hitems later

theorem EntriesKeysUnique.of_mem {entries : List (String × RawValue)}
    {entry : String × RawValue} (h : EntriesKeysUnique entries)
    (hentry : entry ∈ entries) : entry.2.KeysUnique := by
  induction entries with
  | nil => cases hentry
  | cons first entries ih =>
    obtain ⟨-, hfirst, hentries⟩ := h
    rcases List.mem_cons.1 hentry with rfl | later
    · exact hfirst
    · exact ih hentries later

theorem EntriesKeysUnique.nodup {entries : List (String × RawValue)}
    (h : EntriesKeysUnique entries) : (entries.map Prod.fst).Nodup := by
  induction entries with
  | nil => exact List.nodup_nil
  | cons first entries ih =>
    obtain ⟨fresh, -, hentries⟩ := h
    exact List.nodup_cons.2 ⟨fresh, ih hentries⟩

end RawValue

theorem visibleEntries_sublist (entries : List (String × RawValue)) :
    (visibleEntries entries).Sublist entries :=
  (List.take_sublist maxMapKeys _).trans List.filter_sublist

section

variable {α β : Type}

/-- An entry that is not kept hides no other, when its key comes once. -/
theorem lookup_filterMap {entries : List (String × α)} (h : (entries.map Prod.fst).Nodup)
    (f : α → Option β) (key : String) :
    (entries.filterMap fun entry => (f entry.2).map fun value =>
      (entry.1, value)).lookup key = (entries.lookup key).bind f := by
  induction entries with
  | nil => rfl
  | cons entry entries ih =>
    obtain ⟨name, value⟩ := entry
    obtain ⟨fresh, rest⟩ := List.nodup_cons.1 h
    rw [Entries.lookup_cons_eq]
    by_cases same : key = name
    · rw [if_pos same, Option.bind_some]
      cases kept : f value with
      | none =>
        have missing : entries.lookup key = none := by
          rw [List.lookup_eq_none_iff]
          intro other hother
          rw [bne_iff_ne]
          intro hkey
          apply fresh
          show name ∈ entries.map Prod.fst
          rw [← same, hkey]
          exact List.mem_map_of_mem hother
        simp only [List.filterMap_cons, kept, Option.map_none]
        rw [ih rest, missing]
        rfl
      | some image =>
        simp only [List.filterMap_cons, kept, Option.map_some]
        rw [Entries.lookup_cons_eq, if_pos same]
    · rw [if_neg same, ← ih rest]
      cases kept : f value with
      | none => simp only [List.filterMap_cons, kept, Option.map_none]
      | some image =>
        simp only [List.filterMap_cons, kept, Option.map_some]
        rw [Entries.lookup_cons_eq, if_neg same]

end

theorem keptEntries_eq (depth : Nat) (entries : List (String × RawValue)) :
    keptEntries (RawValue.sanitizeEntries depth entries) =
      (visibleEntries entries).filterMap fun entry =>
        (entry.2.sanitize? depth).map fun value => (entry.1, value) := by
  rw [keptEntries, RawValue.sanitizeEntries_eq_map, List.filter_map, ← List.map_take,
    List.filterMap_map]
  rfl

theorem lookup_keptEntries {entries : List (String × RawValue)}
    (h : (entries.map Prod.fst).Nodup) (depth : Nat) (key : String) :
    (keptEntries (RawValue.sanitizeEntries depth entries)).lookup key =
      ((visibleEntries entries).lookup key).bind (·.sanitize? depth) := by
  rw [keptEntries_eq]
  exact lookup_filterMap (h.sublist ((visibleEntries_sublist entries).map Prod.fst)) _ key

/-- The keys that are kept are those of the visible entries that are no callables. -/
theorem keys_keptEntries (depth : Nat) (entries : List (String × RawValue)) :
    (keptEntries (RawValue.sanitizeEntries depth entries)).keys =
      ((visibleEntries entries).filter fun entry => !entry.2.isCallable).map Prod.fst := by
  rw [keptEntries_eq, Entries.keys]
  induction visibleEntries entries with
  | nil => rfl
  | cons entry entries ih =>
    obtain ⟨key, value⟩ := entry
    cases kept : value.sanitize? depth with
    | none =>
      have callable : value.isCallable = true := RawValue.sanitize?_eq_none_iff.1 kept
      simpa [List.filterMap_cons, kept, callable] using ih
    | some image =>
      have shown : value.isCallable = false := by
        rw [← Bool.not_eq_true]
        intro callable
        rw [RawValue.sanitize?_eq_none_iff.2 callable] at kept
        cases kept
      simpa [List.filterMap_cons, kept, shown] using ih

theorem getElem?_keptItems (depth : Nat) (items : List RawValue) (i : Nat) :
    (keptItems (RawValue.sanitizeItems depth items))[i]? =
      if i < maxListLength then items[i]?.map fun item => (item.sanitize? depth).getD .absent
      else none := by
  rw [keptItems, RawValue.sanitizeItems_eq_map, ← List.map_take, List.map_map,
    List.getElem?_map, List.getElem?_take]
  split
  · rfl
  · rfl

theorem length_keptItems (items : List (Option Value)) :
    (keptItems items).length = min items.length maxListLength := by
  rw [keptItems, List.length_map, List.length_take, Nat.min_comm]

end GuardedExpr
