import GuardedExpr.Recency

/-!
# What one request does to a store

`ranking` lists the keys of a store with the one used last in front. A key that is
found moves to the front. A key that is put moves or comes to the front, and as many
keys as there is capacity stay.
-/

namespace GuardedExpr

namespace Recency

variable {α : Type} {store : Recency α} {key : String} {value : α} {entry : String × α}

/-- The keys, the one used last in front. -/
def ranking (store : Recency α) : List String :=
  store.entries.keys.reverse

theorem contains_iff : store.contains key = true ↔ key ∈ store.ranking := by
  rw [contains, Entries.isSome_lookup_iff, ranking, List.mem_reverse]

theorem length_ranking (store : Recency α) : store.ranking.length = store.size := by
  rw [ranking, List.length_reverse, Entries.keys, List.length_map, size]

theorem keys_without (key : String) (entries : Entries α) :
    (without key entries).keys = entries.keys.filter (· != key) := by
  rw [without, Entries.keys, Entries.keys, List.filter_map]
  rfl

theorem mem_of_mem_without {entries : Entries α} (h : entry ∈ without key entries) :
    entry ∈ entries :=
  (List.mem_filter.1 h).1

theorem ne_of_mem_without {entries : Entries α} (h : entry ∈ without key entries) :
    entry.1 ≠ key :=
  bne_iff_ne.1 (List.mem_filter.1 h).2

/-- The ranking with one more entry behind all others. -/
theorem reverse_keys_append (entries : Entries α) (key : String) (value : α) :
    (entries ++ [(key, value)] : Entries α).keys.reverse = key :: entries.keys.reverse := by
  rw [Entries.keys, List.map_append, List.reverse_append]
  rfl

/-- A key that is present makes room for itself. -/
theorem length_filter_ne {keys : List String} (hnodup : keys.Nodup) (h : key ∈ keys) :
    (keys.filter (· != key)).length + 1 = keys.length := by
  rw [← hnodup.erase_eq_filter, List.length_erase_of_mem h]
  exact Nat.sub_add_cancel (List.length_pos_of_mem h)

theorem length_without (hnodup : store.ranking.Nodup) (h : store.contains key = true) :
    (without key store.entries).length + 1 = store.size := by
  have length := length_filter_ne hnodup (contains_iff.1 h)
  rwa [length_ranking, ranking, List.filter_reverse, ← keys_without, List.length_reverse,
    Entries.keys, List.length_map] at length

/-! ## Looking up -/

theorem get_fst (store : Recency α) (key : String) :
    (store.get key).1 = store.entries.lookup key := by
  rw [get]
  cases store.entries.lookup key <;> rfl

theorem get_of_lookup_eq_some (h : store.entries.lookup key = some value) :
    store.get key = (some value, { store with
      entries := without key store.entries ++ [(key, value)]
      stats := { store.stats with hits := store.stats.hits + 1 } }) := by
  rw [get, h]

theorem get_of_lookup_eq_none (h : store.entries.lookup key = none) :
    store.get key = (none, { store with
      stats := { store.stats with misses := store.stats.misses + 1 } }) := by
  rw [get, h]

/-- A key is found when it is present. -/
theorem isSome_get_fst : (store.get key).1.isSome = store.contains key := by
  rw [get_fst, contains]

/-- Looking a key up changes the order of the entries at most. -/
theorem mem_of_mem_get (h : entry ∈ (store.get key).2.entries) : entry ∈ store.entries := by
  cases found : store.entries.lookup key with
  | none =>
    rw [get_of_lookup_eq_none found] at h
    exact h
  | some value =>
    rw [get_of_lookup_eq_some found] at h
    rcases List.mem_append.1 h with kept | moved
    · exact mem_of_mem_without kept
    · rw [List.mem_singleton.1 moved]
      exact Entries.mem_of_lookup found

theorem capacity_get : (store.get key).2.capacity = store.capacity := by
  rw [get]
  cases store.entries.lookup key <;> rfl

theorem ranking_get_of_contains (h : store.contains key = true) :
    (store.get key).2.ranking = key :: store.ranking.filter (· != key) := by
  obtain ⟨value, found⟩ := Option.isSome_iff_exists.1 h
  rw [get_of_lookup_eq_some found, ranking, reverse_keys_append, keys_without,
    ← List.filter_reverse]
  rfl

theorem entries_get_of_not_contains (h : store.contains key = false) :
    (store.get key).2.entries = store.entries := by
  have missing : store.entries.lookup key = none := by
    rwa [contains, Option.isSome_eq_false_iff, Option.isNone_iff_eq_none] at h
  rw [get_of_lookup_eq_none missing]

theorem size_get (hnodup : store.ranking.Nodup) : (store.get key).2.size = store.size := by
  cases present : store.contains key with
  | true =>
    rw [← length_ranking, ranking_get_of_contains present, List.length_cons,
      length_filter_ne hnodup (contains_iff.1 present), length_ranking]
  | false => rw [size, entries_get_of_not_contains present, size]

/-- A look-up counts once, and nothing else changes the number of
look-ups that were counted. -/
theorem hits_add_misses_get :
    (store.get key).2.stats.hits + (store.get key).2.stats.misses =
      store.stats.hits + store.stats.misses + 1 := by
  rw [get]
  cases store.entries.lookup key with
  | none => exact (Nat.add_assoc _ _ _).symm
  | some value => exact Nat.add_right_comm _ _ _

theorem hits_get : (store.get key).2.stats.hits =
    store.stats.hits + if store.contains key then 1 else 0 := by
  rw [get, contains]
  cases store.entries.lookup key <;> rfl

theorem misses_get : (store.get key).2.stats.misses =
    store.stats.misses + if store.contains key then 0 else 1 := by
  rw [get, contains]
  cases store.entries.lookup key <;> rfl

theorem evictions_get : (store.get key).2.stats.evictions = store.stats.evictions := by
  rw [get]
  cases store.entries.lookup key <;> rfl

/-! ## Putting -/

/-- All that putting can do. -/
theorem put_cases (store : Recency α) (key : String) (value : α) :
    (store.capacity = 0 ∧ store.put key value = store) ∨
      (0 < store.capacity ∧ store.contains key = true ∧
        store.put key value =
          { store with entries := without key store.entries ++ [(key, value)] }) ∨
      (store.contains key = false ∧ store.size < store.capacity ∧
        store.put key value = { store with entries := store.entries ++ [(key, value)] }) ∨
      (0 < store.capacity ∧ store.contains key = false ∧ store.capacity ≤ store.size ∧
        store.put key value = { store with
          entries := store.entries.drop 1 ++ [(key, value)]
          stats := { store.stats with evictions := store.stats.evictions + 1 } }) := by
  rw [put]
  by_cases none : store.capacity = 0
  · exact .inl ⟨none, if_pos none⟩
  · have positive : 0 < store.capacity := Nat.pos_of_ne_zero none
    rw [if_neg none]
    cases present : store.contains key with
    | true => exact .inr (.inl ⟨positive, rfl, rfl⟩)
    | false =>
      rcases Nat.lt_or_ge store.size store.capacity with room | full
      · exact .inr (.inr (.inl ⟨rfl, room, if_pos room⟩))
      · exact .inr (.inr (.inr ⟨positive, rfl, full, if_neg (Nat.not_lt.2 full)⟩))

theorem without_of_not_contains (h : store.contains key = false) :
    without key store.entries = store.entries := by
  apply List.filter_eq_self.2
  intro entry hentry
  rw [bne_iff_ne]
  intro same
  have present : store.contains key = true := by
    rw [contains, Entries.isSome_lookup_iff, ← same]
    exact Entries.mem_keys_of_mem hentry
  rw [present] at h
  cases h

/-- What stays when a key is put stands under another key. -/
theorem eq_or_mem_without_of_mem_put (hcapacity : 0 < store.capacity)
    (h : entry ∈ (store.put key value).entries) :
    entry = (key, value) ∨ entry ∈ without key store.entries := by
  rcases put_cases store key value with
    ⟨none, -⟩ | ⟨-, -, eq⟩ | ⟨missing, -, eq⟩ | ⟨-, missing, -, eq⟩
  · rw [none] at hcapacity
    cases hcapacity
  all_goals
    rw [eq] at h
    rcases List.mem_append.1 h with kept | added
  · exact Or.inr kept
  · exact Or.inl (List.mem_singleton.1 added)
  · exact Or.inr (by rwa [without_of_not_contains missing])
  · exact Or.inl (List.mem_singleton.1 added)
  · exact Or.inr (by rw [without_of_not_contains missing]; exact List.mem_of_mem_drop kept)
  · exact Or.inl (List.mem_singleton.1 added)

theorem eq_or_mem_of_mem_put (h : entry ∈ (store.put key value).entries) :
    entry = (key, value) ∨ entry ∈ store.entries := by
  rcases Nat.eq_zero_or_pos store.capacity with none | positive
  · rw [put, if_pos none] at h
    exact Or.inr h
  · exact (eq_or_mem_without_of_mem_put positive h).imp_right mem_of_mem_without

theorem capacity_put : (store.put key value).capacity = store.capacity := by
  rcases put_cases store key value with
    ⟨-, eq⟩ | ⟨-, -, eq⟩ | ⟨-, -, eq⟩ | ⟨-, -, -, eq⟩ <;> rw [eq]

theorem hits_put : (store.put key value).stats.hits = store.stats.hits := by
  rcases put_cases store key value with
    ⟨-, eq⟩ | ⟨-, -, eq⟩ | ⟨-, -, eq⟩ | ⟨-, -, -, eq⟩ <;> rw [eq]

theorem misses_put : (store.put key value).stats.misses = store.stats.misses := by
  rcases put_cases store key value with
    ⟨-, eq⟩ | ⟨-, -, eq⟩ | ⟨-, -, eq⟩ | ⟨-, -, -, eq⟩ <;> rw [eq]

theorem hits_add_misses_put :
    (store.put key value).stats.hits + (store.put key value).stats.misses =
      store.stats.hits + store.stats.misses := by
  rcases put_cases store key value with
    ⟨-, eq⟩ | ⟨-, -, eq⟩ | ⟨-, -, eq⟩ | ⟨-, -, -, eq⟩ <;> rw [eq]

/-- A store in which a key stands once and which does not exceed its capacity puts a key in
front of its ranking, and cuts the ranking to its capacity. -/
theorem ranking_put (hnodup : store.ranking.Nodup)
    (hsize : store.ranking.length ≤ store.capacity) :
    (store.put key value).ranking =
      (key :: store.ranking.filter (· != key)).take store.capacity := by
  have others : store.contains key = false →
      store.ranking.filter (· != key) = store.ranking := by
    intro missing
    rw [ranking, List.filter_reverse, ← keys_without, without_of_not_contains missing]
  rcases put_cases store key value with
    ⟨none, eq⟩ | ⟨-, present, eq⟩ | ⟨missing, room, eq⟩ | ⟨positive, missing, full, eq⟩
  · rw [eq, none]
    exact List.eq_nil_of_length_eq_zero (Nat.le_zero.1 (none ▸ hsize))
  · have length := length_filter_ne hnodup (contains_iff.1 present)
    rw [eq, ranking, reverse_keys_append, keys_without, ← List.filter_reverse,
      List.take_of_length_le]
    · rfl
    · rw [List.length_cons, length]
      exact hsize
  · rw [others missing, eq, ranking, reverse_keys_append, List.take_of_length_le]
    · rfl
    · rw [List.length_cons, length_ranking]
      exact room
  · obtain ⟨fewer, size⟩ : ∃ fewer, store.capacity = fewer + 1 :=
      Nat.exists_eq_add_one_of_ne_zero (Nat.ne_of_gt positive)
    have length : store.ranking.length = fewer + 1 := by
      rw [length_ranking] at hsize ⊢
      omega
    have last : (Entries.keys (store.entries.drop 1)).reverse = store.ranking.dropLast := by
      rw [ranking, List.dropLast_reverse, Entries.keys, Entries.keys, List.map_drop,
        List.drop_one]
    rw [others missing, eq, ranking, reverse_keys_append, last, List.dropLast_eq_take,
      length, size, List.take_succ_cons]
    rfl

theorem size_put (hnodup : store.ranking.Nodup) (hsize : store.size ≤ store.capacity) :
    (store.put key value).size =
      if store.contains key then store.size else min store.capacity (store.size + 1) := by
  have bounded : store.ranking.length ≤ store.capacity := by rwa [length_ranking]
  rw [← length_ranking, ranking_put hnodup bounded, List.length_take, List.length_cons]
  split
  case isTrue present =>
    rw [length_filter_ne hnodup (contains_iff.1 present), length_ranking]
    exact Nat.min_eq_right hsize
  case isFalse missing =>
    have whole : store.ranking.filter (· != key) = store.ranking := by
      apply List.filter_eq_self.2
      intro name hname
      rw [bne_iff_ne]
      rintro rfl
      exact missing (contains_iff.2 hname)
    rw [whole, length_ranking]

/-- A new key that is put is either one more entry or takes the place of one. -/
theorem size_add_evictions_put (hnodup : store.ranking.Nodup)
    (hcapacity : 0 < store.capacity) :
    (store.put key value).size + (store.put key value).stats.evictions =
      store.size + store.stats.evictions + if store.contains key then 0 else 1 := by
  rcases put_cases store key value with
    ⟨none, -⟩ | ⟨-, present, eq⟩ | ⟨missing, room, eq⟩ | ⟨positive, missing, full, eq⟩
  · omega
  · have length := length_filter_ne hnodup (contains_iff.1 present)
    rw [length_ranking] at length
    rw [present, eq, ← length_ranking, ranking, reverse_keys_append, keys_without,
      ← List.filter_reverse, List.length_cons]
    show (store.ranking.filter _).length + 1 + _ = _
    rw [length]
    rfl
  · rw [missing, eq, size, size, List.length_append]
    exact Nat.add_right_comm _ _ _
  · rw [missing, eq, size, List.length_append, List.length_drop]
    rw [size] at full ⊢
    show store.entries.length - 1 + 1 + (store.stats.evictions + 1) =
      store.entries.length + store.stats.evictions + 1
    omega

/-- A key that was looked up in vain and is then put is a new one. -/
theorem size_add_evictions_put_get (hnodup : store.ranking.Nodup)
    (hcapacity : 0 < store.capacity) (missed : store.contains key = false) :
    ((store.get key).2.put key value).size +
      ((store.get key).2.put key value).stats.evictions =
      store.size + store.stats.evictions + 1 := by
  have same : (store.get key).2.entries = store.entries := entries_get_of_not_contains missed
  have missing : (store.get key).2.contains key = false := by
    rw [contains, same]
    exact missed
  have distinct : (store.get key).2.ranking.Nodup := by
    rw [ranking, same]
    exact hnodup
  rw [size_add_evictions_put distinct (by rwa [capacity_get]), size_get hnodup,
    evictions_get, missing]
  rfl

end Recency

end GuardedExpr
