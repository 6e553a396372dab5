import GuardedExpr.Proofs.Recency.Recent

/-!
# Larger stores do no worse

Two stores of different capacity are sent the same requests. A look-up may be found in the
larger one only, which then moves the key while the smaller one stays as it is, and the two
evict at different times. Still the smaller store always holds some of the entries of the
larger one, in the same order. This rests on the smaller store being full as soon as it
lacks an entry that the larger one has.
-/

namespace GuardedExpr.Recency

variable {α : Type} {store small large : Recency α} {key : String} {value : α}

/-- The larger store has the entries of the smaller one, in their order, and the smaller
one has as many of them as it can hold. -/
structure Included (small large : Recency α) : Prop where
  capacity_le : small.capacity ≤ large.capacity
  entries : small.entries.Sublist large.entries
  size_eq : small.size = min small.capacity large.size
  hits_le : small.stats.hits ≤ large.stats.hits

/-- Whatever makes room for a key that is put, the others stay in their order. -/
theorem entries_put_eq_append (positive : 0 < store.capacity) (key : String) (value : α) :
    ∃ kept, (store.put key value).entries = kept ++ [(key, value)] ∧
      kept.Sublist (without key store.entries) := by
  rcases put_cases store key value with
    ⟨none, -⟩ | ⟨-, -, eq⟩ | ⟨missing, -, eq⟩ | ⟨-, missing, -, eq⟩
  · rw [none] at positive
    cases positive
  · exact ⟨_, congrArg entries eq, .refl _⟩
  · exact ⟨_, congrArg entries eq, by rw [without_of_not_contains missing]⟩
  · refine ⟨_, congrArg entries eq, ?_⟩
    rw [without_of_not_contains missing]
    exact List.drop_sublist 1 _

namespace Included

section

variable (h : Included small large)
include h

theorem nodup_ranking (nodup : large.ranking.Nodup) : small.ranking.Nodup :=
  nodup.sublist (h.entries.map Prod.fst).reverse

theorem size_le_capacity : small.size ≤ small.capacity := by
  rw [h.size_eq]
  exact Nat.min_le_left _ _

theorem lookup (nodup : large.ranking.Nodup)
    (found : small.entries.lookup key = some value) :
    large.entries.lookup key = some value :=
  Entries.lookup_of_mem (List.nodup_reverse.1 nodup)
    (h.entries.subset (Entries.mem_of_lookup found))

theorem contains_of_contains (nodup : large.ranking.Nodup)
    (present : small.contains key = true) :
    large.contains key = true := by
  obtain ⟨value, found⟩ := Option.isSome_iff_exists.1 present
  rw [contains, h.lookup nodup found]
  rfl

/-- A key that the smaller store lacks is in no way of the entries that it has. -/
theorem entries_without (missing : small.contains key = false) :
    small.entries.Sublist (without key large.entries) := by
  have others := h.entries.filter (·.1 != key)
  rwa [show small.entries.filter (·.1 != key) =
    small.entries from without_of_not_contains missing]
    at others

/-- The smaller store is full if the larger one is. -/
theorem size_eq_capacity (full : large.capacity ≤ large.size) :
    small.size = small.capacity := by
  have sizes := h.size_eq
  have le := h.capacity_le
  omega

/-! ### One request -/

theorem entries_get (nodup : large.ranking.Nodup) (key : String) :
    (small.get key).2.entries.Sublist (large.get key).2.entries := by
  cases found : small.entries.lookup key with
  | some value =>
    rw [get_of_lookup_eq_some found, get_of_lookup_eq_some (h.lookup nodup found)]
    exact (h.entries.filter _).append_right _
  | none =>
    have missing : small.contains key = false := by
      rw [contains, found]
      rfl
    rw [get_of_lookup_eq_none found]
    cases found' : large.entries.lookup key with
    | none =>
      rw [get_of_lookup_eq_none found']
      exact h.entries
    | some value =>
      rw [get_of_lookup_eq_some found']
      exact (h.entries_without missing).trans (List.sublist_append_left _ _)

theorem get (nodup : large.ranking.Nodup) (key : String) :
    Included (small.get key).2 (large.get key).2 where
  capacity_le := by
    rw [capacity_get, capacity_get]
    exact h.capacity_le
  entries := h.entries_get nodup key
  size_eq := by
    rw [size_get (h.nodup_ranking nodup), size_get nodup, capacity_get]
    exact h.size_eq
  hits_le := by
    rw [hits_get, hits_get]
    cases present : small.contains key with
    | false => exact Nat.le_trans h.hits_le (Nat.le_add_right _ _)
    | true =>
      rw [h.contains_of_contains nodup present]
      exact Nat.succ_le_succ h.hits_le

theorem entries_put (nodup : large.ranking.Nodup) (key : String) (value : α) :
    (small.put key value).entries.Sublist (large.put key value).entries := by
  rcases Nat.eq_zero_or_pos small.capacity with none | positive
  · have empty : small.entries = [] :=
      List.eq_nil_of_length_eq_zero (Nat.le_zero.1 (none ▸ h.size_le_capacity))
    rw [put, if_pos none, empty]
    exact List.nil_sublist _
  · obtain ⟨kept, eq, part⟩ := entries_put_eq_append positive key value
    rcases put_cases large key value with
      ⟨none, -⟩ | ⟨-, -, eq'⟩ | ⟨missing, -, eq'⟩ | ⟨-, missing, full, eq'⟩
    · have le := h.capacity_le
      omega
    · rw [eq, eq']
      exact (part.trans (h.entries.filter _)).append_right _
    · rw [eq, eq']
      exact ((part.trans (List.filter_sublist)).trans h.entries).append_right _
    · -- Both stores have to forget their oldest entry.
      have missing' : small.contains key = false := by
        rw [← Bool.not_eq_true] at missing ⊢
        exact fun present => missing (h.contains_of_contains nodup present)
      have full' := h.size_eq_capacity full
      rw [put, if_neg (Nat.ne_of_gt positive), missing', if_neg Bool.false_ne_true,
        if_neg (by omega), eq']
      exact (h.entries.drop 1).append_right _

theorem put (nodup : large.ranking.Nodup) (size_le : large.size ≤ large.capacity)
    (key : String) (value : α) : Included (small.put key value) (large.put key value) where
  capacity_le := by
    rw [capacity_put, capacity_put]
    exact h.capacity_le
  entries := h.entries_put nodup key value
  size_eq := by
    rw [size_put (h.nodup_ranking nodup) h.size_le_capacity, size_put nodup size_le,
      capacity_put]
    have sizes := h.size_eq
    have le := h.capacity_le
    cases present : small.contains key with
    | true =>
      rw [h.contains_of_contains nodup present]
      exact sizes
    | false =>
      cases present' : large.contains key with
      | false =>
        show min _ _ = min _ (min _ _)
        omega
      | true =>
        have fewer : small.size < large.size := by
          rw [← length_without nodup present']
          exact Nat.lt_succ_of_le (h.entries_without present).length_le
        show min _ _ = min _ large.size
        omega
  hits_le := by
    rw [hits_put, hits_put]
    exact h.hits_le

theorem clear : Included small.clear large.clear where
  capacity_le := h.capacity_le
  entries := .refl _
  size_eq := (Nat.min_zero _).symm
  hits_le := h.hits_le

end

end Included

/-! ## Runs -/

theorem included_after {small large : Nat} (h : small ≤ large)
    (requests : List (Request α)) :
    Included (after small requests) (after large requests) := by
  induction requests with
  | nil => exact ⟨h, .refl _, (Nat.min_zero _).symm, Nat.le_refl 0⟩
  | cons request earlier ih =>
    have nodup := nodup_ranking_after large earlier
    cases request with
    | get key => exact ih.get nodup key
    | put key value =>
      have size_le : (after large earlier).size ≤ (after large earlier).capacity := by
        rw [capacity_after]
        exact size_after_le large earlier
      exact ih.put nodup size_le key value
    | contains key => exact ih
    | clear => exact ih.clear

/-- Of two stores that are sent the same requests the larger one holds all that the
smaller one holds, in the same order. So it finds what the smaller one finds, and
counts no fewer hits. -/
theorem after_monotone {small large : Nat} (h : small ≤ large)
    (requests : List (Request α)) :
    (after small requests).entries.Sublist (after large requests).entries ∧
      (∀ key value, ((after small requests).get key).1 = some value →
        ((after large requests).get key).1 = some value) ∧
      (after small requests).stats.hits ≤ (after large requests).stats.hits := by
  have included : Included (after small requests) (after large requests) :=
    included_after h requests
  refine ⟨included.entries, ?_, included.hits_le⟩
  intro key value found
  rw [get_fst] at found ⊢
  exact included.lookup (nodup_ranking_after large requests) found

-- The look-up is found in the larger store only, which moves its key behind the newest one
-- and then has to evict the second.
theorem after_monotone_two_three :
    let requests : List (Request Nat) :=
      [.put "d" 4, .get "a", .put "c" 3, .put "b" 2, .put "a" 1]
    2 ≤ 3 ∧ (after 2 requests).entries = [("c", 3), ("d", 4)] ∧
      (after 3 requests).entries = [("c", 3), ("a", 1), ("d", 4)] ∧
      (after 2 requests).entries.Sublist (after 3 requests).entries ∧
      ((after 3 requests).get "c").1 = some 3 ∧
      (after 2 requests).stats.hits ≤ (after 3 requests).stats.hits := by
  intro requests
  obtain ⟨part, found, hits⟩ := after_monotone (by decide : 2 ≤ 3) requests
  exact ⟨by decide, by decide, by decide, part, found "c" 3 (by decide), hits⟩

end GuardedExpr.Recency
