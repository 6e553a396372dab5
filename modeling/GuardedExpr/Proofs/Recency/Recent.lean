import GuardedExpr.Proofs.Recency.Run
import Mathlib.Data.List.Dedup
import Mathlib.Data.List.TakeWhile

/-!
# The most recent keys

`recent uses` lists each key of a list of uses once, by its last use. The ranking of a
store is the front of this list, as long as the capacity. So a key is present exactly when
fewer other keys than that were used since its own last use.
-/

namespace GuardedExpr.Recency

/-! ## Keys by their last use -/

/-- Each key once, the one used last in front. The uses come latest first. -/
def recent : List String → List String
  | [] => []
  | key :: uses => key :: (recent uses).filter (· != key)

variable {uses : List String} {key : String}

theorem mem_recent_iff : key ∈ recent uses ↔ key ∈ uses := by
  induction uses with
  | nil => rfl
  | cons name uses ih =>
    rw [recent, List.mem_cons, List.mem_cons, List.mem_filter, ih, bne_iff_ne]
    by_cases same : key = name
    · simp only [same, true_or]
    · simp only [same, false_or, ne_eq, not_false_eq_true, and_true]

theorem nodup_recent (uses : List String) : (recent uses).Nodup := by
  induction uses with
  | nil => exact List.nodup_nil
  | cons name uses ih =>
    refine List.nodup_cons.2 ⟨?_, ih.filter _⟩
    intro again
    exact bne_iff_ne.1 (List.mem_filter.1 again).2 rfl

theorem length_recent (uses : List String) : (recent uses).length = uses.dedup.length := by
  have same : (recent uses).Perm uses.dedup := by
    rw [List.perm_ext_iff_of_nodup (nodup_recent uses) (List.nodup_dedup uses)]
    intro key
    rw [mem_recent_iff, List.mem_dedup]
  exact same.length_eq

/-- Behind the keys used since a key was used last comes the key itself. -/
theorem recent_eq_append (h : key ∈ uses) :
    ∃ older, recent uses = recent (usedSince key uses) ++ key :: older := by
  induction uses with
  | nil => cases h
  | cons name uses ih =>
    by_cases same : name = key
    · subst same
      have none : usedSince name (name :: uses) = [] := List.takeWhile_cons_of_neg (by simp)
      exact ⟨_, by rw [none]; rfl⟩
    · have other : (name != key) = true := bne_iff_ne.2 same
      have further : usedSince key (name :: uses) = name :: usedSince key uses :=
        List.takeWhile_cons_of_pos other
      obtain ⟨older, split⟩ := ih ((List.mem_cons.1 h).resolve_left (Ne.symm same))
      have kept : (key :: older).filter (· != name) = key :: older.filter (· != name) :=
        List.filter_cons_of_pos (bne_iff_ne.2 (Ne.symm same))
      refine ⟨older.filter (· != name), ?_⟩
      rw [further, recent, recent, split, List.filter_append, kept]
      rfl

theorem not_mem_usedSince : key ∉ usedSince key uses := by
  intro h
  have other := List.mem_takeWhile_imp h
  exact bne_iff_ne.1 other rfl

/-- A key is among the first ones exactly when it was used, and fewer other keys since. -/
theorem mem_take_recent_iff {n : Nat} :
    key ∈ (recent uses).take n ↔ key ∈ uses ∧ (usedSince key uses).dedup.length < n := by
  rw [← length_recent]
  constructor
  · intro h
    have use : key ∈ uses := mem_recent_iff.1 (List.mem_of_mem_take h)
    obtain ⟨older, split⟩ := recent_eq_append use
    refine ⟨use, Nat.lt_of_not_le fun short => ?_⟩
    rw [split, List.take_append_of_le_length short] at h
    exact not_mem_usedSince (mem_recent_iff.1 (List.mem_of_mem_take h))
  · rintro ⟨use, few⟩
    obtain ⟨older, split⟩ := recent_eq_append use
    rw [split, List.mem_take_iff_getElem]
    refine ⟨(recent (usedSince key uses)).length, ?_, ?_⟩
    · rw [List.length_append, List.length_cons]
      omega
    · rw [List.getElem_append_right (Nat.le_refl _)]
      simp

/-- In the list of the most recent keys each comes in front of those
whose last use is older. -/
theorem pairwise_recent (uses : List String) :
    (recent uses).Pairwise fun newer older => newer ∈ usedSince older uses := by
  induction uses with
  | nil => exact List.Pairwise.nil
  | cons name uses ih =>
    have further : ∀ other ∈ (recent uses).filter (· != name),
        usedSince other (name :: uses) = name :: usedSince other uses := by
      intro other hother
      exact List.takeWhile_cons_of_pos
        (bne_iff_ne.2 (bne_iff_ne.1 (List.mem_filter.1 hother).2).symm)
    refine List.pairwise_cons.2 ⟨?_, ?_⟩
    · intro other hother
      rw [further other hother]
      exact List.mem_cons_self
    · apply (ih.filter _).imp_of_mem
      intro newer older _ holder since
      rw [further older holder]
      exact List.mem_cons_of_mem name since

/-- What is not among the first keys has no say in which keys are the first. -/
theorem take_filter_take {keys : List String} (h : keys.Nodup) (key : String) (n : Nat) :
    ((keys.take (n + 1)).filter (· != key)).take n = (keys.filter (· != key)).take n := by
  induction keys generalizing n with
  | nil => rfl
  | cons name keys ih =>
    obtain ⟨fresh, rest⟩ := List.nodup_cons.1 h
    by_cases same : name = key
    · subst same
      have others : ∀ part : List String, part.Sublist keys →
          part.filter (· != name) = part := by
        intro part hpart
        apply List.filter_eq_self.2
        intro other hother
        rw [bne_iff_ne]
        rintro rfl
        exact fresh (hpart.subset hother)
      rw [List.take_succ_cons, List.filter_cons_of_neg (by simp),
        List.filter_cons_of_neg (by simp), others _ (List.take_sublist n keys),
        others _ (List.Sublist.refl keys), List.take_take, Nat.min_self]
    · have kept : ∀ part : List String,
          (name :: part).filter (· != key) = name :: part.filter (· != key) :=
        fun part => List.filter_cons_of_pos (bne_iff_ne.2 same)
      rw [List.take_succ_cons, kept, kept]
      cases n with
      | zero => rfl
      | succ n => rw [List.take_succ_cons, List.take_succ_cons, ih rest]

/-- Using a key moves it to the front, whether the older keys were cut before or not. -/
theorem take_cons_filter_take {keys : List String} (h : keys.Nodup) (key : String)
    (n : Nat) :
    (key :: (keys.take n).filter (· != key)).take n =
      (key :: keys.filter (· != key)).take n := by
  cases n with
  | zero => rfl
  | succ n => rw [List.take_succ_cons, List.take_succ_cons, take_filter_take h]

/-! ## Runs -/

variable {α : Type}

/-- The ranking of a store are the most recently used keys, as many as there is capacity. -/
theorem ranking_after (capacity : Nat) (requests : List (Request α)) :
    (after capacity requests).ranking = (recent (used capacity requests)).take capacity := by
  induction requests with
  | nil => rw [used, recent, List.take_nil]; rfl
  | cons request earlier ih =>
    have distinct : (recent (used capacity earlier)).Nodup := nodup_recent _
    have nodup : (after capacity earlier).ranking.Nodup := by
      rw [ih]
      exact distinct.sublist (List.take_sublist _ _)
    have short : (after capacity earlier).ranking.length ≤ capacity := by
      rw [ih]
      exact List.length_take_le _ _
    cases request with
    | get key =>
      rw [used, isSome_get_fst]
      cases present : (after capacity earlier).contains key with
      | true =>
        have length := length_filter_ne nodup (contains_iff.1 present)
        have whole : (key :: (after capacity earlier).ranking.filter (· != key)).length ≤
            capacity := by
          rw [List.length_cons, length]
          exact short
        show ((after capacity earlier).get key).2.ranking = _
        rw [ranking_get_of_contains present, ← List.take_of_length_le whole, ih,
          take_cons_filter_take distinct]
        rfl
      | false =>
        show ((after capacity earlier).get key).2.entries.keys.reverse = _
        rw [entries_get_of_not_contains present]
        exact ih
    | put key value =>
      show ((after capacity earlier).put key value).ranking = _
      have bounded :
          (after capacity earlier).ranking.length ≤ (after capacity earlier).capacity := by
        rwa [capacity_after]
      rw [ranking_put nodup bounded, capacity_after, ih, take_cons_filter_take distinct,
        used, recent]
    | contains key => exact ih
    | clear => rw [used, recent, List.take_nil]; rfl

theorem nodup_ranking_after (capacity : Nat) (requests : List (Request α)) :
    (after capacity requests).ranking.Nodup := by
  rw [ranking_after]
  exact (nodup_recent _).sublist (List.take_sublist _ _)

theorem size_after_le (capacity : Nat) (requests : List (Request α)) :
    (after capacity requests).size ≤ capacity := by
  rw [← length_ranking, ranking_after]
  exact List.length_take_le _ _

theorem contains_after_iff (capacity : Nat) (requests : List (Request α)) (key : String) :
    (after capacity requests).contains key = true ↔
      key ∈ used capacity requests ∧
        (usedSince key (used capacity requests)).dedup.length < capacity := by
  rw [contains_iff, ranking_after, mem_take_recent_iff]

/-- Only what was put can be used. -/
theorem mem_used_iff (capacity : Nat) (requests : List (Request α)) (key : String) :
    key ∈ used capacity requests ↔ (lastPut key requests).isSome = true := by
  induction requests with
  | nil => simp [used, lastPut]
  | cons request earlier ih =>
    cases request with
    | get name =>
      rw [used, isSome_get_fst, lastPut, ← ih]
      split
      case isFalse => rfl
      case isTrue present =>
        have before : name ∈ used capacity earlier :=
          ((contains_after_iff _ _ _).1 present).1
        rw [List.mem_cons]
        exact ⟨fun h => h.elim (fun same => same ▸ before) id, Or.inr⟩
    | put name value =>
      rw [used, lastPut, List.mem_cons, ih]
      by_cases same : name = key
      · simp [same]
      · rw [if_neg same]
        exact ⟨fun h => h.resolve_left (Ne.symm same), Or.inr⟩
    | contains name => exact ih
    | clear => simp [used, lastPut]

/-- Under each key stands what was last put there. -/
theorem lastPut_of_mem (capacity : Nat) (requests : List (Request α)) :
    ∀ entry ∈ (after capacity requests).entries,
      lastPut entry.1 requests = some entry.2 := by
  induction requests with
  | nil =>
    intro entry h
    cases h
  | cons request earlier ih =>
    intro entry h
    cases request with
    | get key => exact ih entry (mem_of_mem_get h)
    | put key value =>
      rcases Nat.eq_zero_or_pos capacity with none | positive
      · have empty : (after capacity (.put key value :: earlier)).size = 0 :=
          Nat.le_zero.1 (none ▸ size_after_le capacity _)
        rw [List.eq_nil_of_length_eq_zero empty] at h
        cases h
      · rw [← capacity_after capacity earlier] at positive
        rcases eq_or_mem_without_of_mem_put positive h with rfl | kept
        · exact if_pos rfl
        · rw [lastPut, if_neg (Ne.symm (ne_of_mem_without kept))]
          exact ih entry (mem_of_mem_without kept)
    | contains key => exact ih entry h
    | clear => cases h

theorem get_after_of_contains {capacity : Nat} {requests : List (Request α)} {key : String}
    (h : (after capacity requests).contains key = true) :
    ((after capacity requests).get key).1 = lastPut key requests := by
  obtain ⟨value, found⟩ := Option.isSome_iff_exists.1 h
  rw [get_fst, found]
  exact (lastPut_of_mem capacity requests _ (Entries.mem_of_lookup found)).symm

/-- Every new key that was put is present, was evicted, or was dropped by a clear. -/
theorem newPuts_eq {capacity : Nat} (hcapacity : 0 < capacity)
    (requests : List (Request α)) :
    newPuts capacity requests =
      (after capacity requests).size + (after capacity requests).stats.evictions +
        cleared capacity requests := by
  induction requests with
  | nil => rfl
  | cons request earlier ih =>
    cases request with
    | get key =>
      rw [newPuts, cleared, ih, after, perform, size_get (nodup_ranking_after _ _),
        evictions_get]
    | put key value =>
      have change := @size_add_evictions_put _ (after capacity earlier) key value
        (nodup_ranking_after _ _) (by rwa [capacity_after])
      rw [newPuts, cleared, ih, after, perform, change, Nat.add_right_comm]
    | contains key => exact ih
    | clear =>
      rw [newPuts, cleared, ih]
      show (after capacity earlier).size + (after capacity earlier).stats.evictions + _ =
        0 + (after capacity earlier).stats.evictions + (_ + _)
      omega

/-- A store holds exactly the keys that were put since the last clear and since whose last
use fewer other keys than the capacity were used. It holds each once, in the order of last
use, with the value put last, and its counts account for all look-ups and all new keys. -/
theorem after_exactly_recent (capacity : Nat) (requests : List (Request α)) :
    let store := after capacity requests
    let uses := used capacity requests
    (∀ key, store.contains key = true ↔
        (lastPut key requests).isSome = true ∧
        (usedSince key uses).dedup.length < capacity) ∧
      (∀ key, store.contains key = true → (store.get key).1 = lastPut key requests) ∧
      store.entries.keys.Nodup ∧
      store.entries.keys.Pairwise (fun older newer => newer ∈ usedSince older uses) ∧
      store.size ≤ capacity ∧
      store.stats.hits + store.stats.misses = requests.countP Request.isGet ∧
      (0 < capacity →
        newPuts capacity requests = store.size + store.stats.evictions +
          cleared capacity requests) ∧
      (capacity = 0 → store.isEmpty = true ∧ ∀ key, (store.get key).1 = none) := by
  intro store uses
  refine ⟨?_, fun key => get_after_of_contains, ?_, ?_, size_after_le capacity requests,
    hits_add_misses_after capacity requests, fun positive =>
      newPuts_eq positive requests, ?_⟩
  · intro key
    rw [← mem_used_iff capacity]
    exact contains_after_iff capacity requests key
  · exact List.nodup_reverse.1 (nodup_ranking_after capacity requests)
  · have ordered : store.ranking.Pairwise fun newer older =>
        newer ∈ usedSince older uses := by
      rw [ranking_after]
      exact (pairwise_recent uses).sublist (List.take_sublist _ _)
    exact List.pairwise_reverse.1 ordered
  · intro none
    have empty : store.entries = [] :=
      List.eq_nil_of_length_eq_zero (Nat.le_zero.1 (none ▸ size_after_le capacity requests))
    refine ⟨by rw [isEmpty, empty]; rfl, ?_⟩
    intro key
    rw [get_fst, empty]
    rfl

-- The look-up makes the first key more recent than the second, which then has to leave.
theorem after_exactly_recent_two :
    let requests : List (Request Nat) := [.put "c" 3, .get "a", .put "b" 2, .put "a" 1]
    let store := after 2 requests
    (store.contains "a" = true ∧ (store.get "a").1 = some 1) ∧ store.contains "b" = false ∧
      store.entries.keys.Nodup ∧ newPuts 2 requests = 3 ∧
      newPuts 2 requests = store.size + store.stats.evictions + cleared 2 requests := by
  intro requests store
  obtain ⟨present, value, nodup, -, -, -, balance, -⟩ := after_exactly_recent 2 requests
  have first : store.contains "a" = true := (present "a").2 (by decide)
  have second : store.contains "b" = false := by
    rw [Bool.eq_false_iff]
    exact fun h => absurd ((present "b").1 h) (by decide)
  exact ⟨⟨first, (value "a" first).trans (by decide)⟩, second, nodup, by decide,
    balance (by decide)⟩

end GuardedExpr.Recency
