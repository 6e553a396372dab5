import GuardedExpr.Host.View
import GuardedExpr.Proofs.Host.Path

/-!
# Bounds of what an expression can hold

`Value.Within level` says what may stand at a level of a sanitized context: how long
lists and maps are, under which keys, and how deep each view believes it lies. All
that raw data sanitize to keeps these bounds, whatever the host hands in, and so
does each answer of a view.
-/

namespace GuardedExpr

/-- What may stand at a level, apart from an absent value. A view knows its level. One
level below the deepest there are only empty maps, and nothing is further down. -/
inductive Value.Within : Nat → Value → Prop
  | null {level : Nat} (shallow : level ≤ maxDepth) : Within level .null
  | bool {level : Nat} (shallow : level ≤ maxDepth) (b : Bool) : Within level (.bool b)
  | number {level : Nat} (shallow : level ≤ maxDepth) (x : Float) : Within level (.number x)
  | text {level : Nat} (shallow : level ≤ maxDepth) (s : String) : Within level (.text s)
  | host {level : Nat} (inside : 1 ≤ level) (shallow : level ≤ maxDepth)
      (object : ObjectId) :
      Within level (.host ⟨object, level⟩)
  /-- A slot of a list may be absent. -/
  | list {level : Nat} {items : List Value} (shallow : level ≤ maxDepth)
      (short : items.length ≤ maxListLength)
      (below : ∀ item ∈ items, item ≠ .absent → Within (level + 1) item) :
      Within level (.list items)
  | map {level : Nat} {entries : Entries Value} (shallow : level ≤ maxDepth)
      (short : entries.length ≤ maxMapKeys)
      (safe : ∀ key ∈ entries.keys, isSafeKey key = true)
      (below : ∀ entry ∈ entries, Within (level + 1) entry.2) : Within level (.map entries)
  | cut : Within (maxDepth + 1) (.map [])

namespace Value.Within

variable {level : Nat} {value : Value}

theorem host_depth {view : HostView} (h : Value.Within level (.host view)) :
    view.depth = level ∧ 1 ≤ level ∧ level ≤ maxDepth := by
  cases h with
  | host inside shallow object => exact ⟨rfl, inside, shallow⟩

end Value.Within

theorem mem_of_mem_keptItems {items : List (Option Value)} {item : Value}
    (h : item ∈ keptItems items) (present : item ≠ .absent) : some item ∈ items := by
  rw [keptItems] at h
  obtain ⟨slot, kept, rfl⟩ := List.mem_map.1 h
  cases slot with
  | none => exact absurd rfl present
  | some value => exact List.mem_of_mem_take kept

theorem length_keptEntries_le (entries : List (String × Option Value)) :
    (keptEntries entries).length ≤ maxMapKeys := by
  rw [keptEntries]
  refine Nat.le_trans (List.length_filterMap_le _ _) ?_
  rw [List.length_take]
  exact Nat.min_le_left _ _

theorem mem_of_mem_keptEntries {entries : List (String × Option Value)}
    {entry : String × Value} (h : entry ∈ keptEntries entries) :
    isSafeKey entry.1 = true ∧ (entry.1, some entry.2) ∈ entries := by
  rw [keptEntries] at h
  obtain ⟨⟨key, slot⟩, looked, kept⟩ := List.mem_filterMap.1 h
  obtain ⟨listed, safe⟩ := List.mem_filter.1 (List.mem_of_mem_take looked)
  obtain ⟨value, there, rfl⟩ := Option.map_eq_some_iff.1 kept
  subst there
  exact ⟨safe, listed⟩

theorem isSafeKey_of_mem_keptEntries {entries : List (String × Option Value)} {key : String}
    (h : key ∈ (keptEntries entries).keys) : isSafeKey key = true := by
  rw [Entries.keys] at h
  obtain ⟨entry, kept, rfl⟩ := List.mem_map.1 h
  exact (mem_of_mem_keptEntries kept).1

namespace RawValue

/-- Whatever is left of raw data below the deepest level is an empty map. -/
theorem eq_empty_of_sanitize? {depth : Nat} {raw : RawValue} {value : Value}
    (deep : maxDepth < depth) (h : raw.sanitize? depth = some value) : value = .map [] := by
  have shown : raw.isCallable = false := by
    rw [← Bool.not_eq_true]
    intro callable
    rw [sanitize?_eq_none_iff.2 callable] at h
    cases h
  rw [sanitize?_of_lt shown deep, Option.some.injEq] at h
  exact h.symm

/-- What raw data sanitize to keeps the bounds of its level. The induction is
on how many levels are left below it, since below the deepest level nothing of
the data is looked at. -/
theorem within_of_sanitize? {levels depth : Nat} {raw : RawValue} {value : Value}
    (room : depth + levels = maxDepth + 1) (start : 1 ≤ depth)
    (h : raw.sanitize? depth = some value) : value.Within depth := by
  induction levels generalizing depth raw value with
  | zero =>
    have edge : depth = maxDepth + 1 := room
    rw [eq_empty_of_sanitize? (edge ▸ Nat.lt_succ_self maxDepth) h, edge]
    exact .cut
  | succ levels ih =>
    have shallow : depth ≤ maxDepth := by omega
    have next : depth + 1 + levels = maxDepth + 1 := by omega
    cases raw with
    | callable run => cases h
    | list items =>
      rw [sanitize?, cutAt_of_le shallow, Option.some.injEq] at h
      subst h
      refine .list shallow ?_ ?_
      · rw [length_keptItems]
        exact Nat.min_le_right _ _
      · intro item kept present
        have listed := mem_of_mem_keptItems kept present
        rw [sanitizeItems_eq_map] at listed
        obtain ⟨source, -, made⟩ := List.mem_map.1 listed
        exact ih next (Nat.le_succ_of_le start) made
    | map entries =>
      rw [sanitize?, cutAt_of_le shallow, Option.some.injEq] at h
      subst h
      refine .map shallow (length_keptEntries_le _)
        (fun _ => isSafeKey_of_mem_keptEntries) ?_
      intro entry kept
      have listed := (mem_of_mem_keptEntries kept).2
      rw [sanitizeEntries_eq_map] at listed
      obtain ⟨source, -, made⟩ := List.mem_map.1 listed
      exact ih next (Nat.le_succ_of_le start) (Prod.mk.inj made).2
    | _ =>
      rw [sanitize?, cutAt_of_le shallow, Option.some.injEq] at h
      subst h
      constructor <;> assumption

end RawValue

/-- A variable keeps the bounds of the first level. -/
theorem within_of_mem_sanitize {raw : RawContext} {entry : String × Value}
    (h : entry ∈ (sanitize raw).vars) : entry.2.Within 1 := by
  have listed := (mem_of_mem_keptEntries h).2
  rw [RawValue.sanitizeEntries_eq_map] at listed
  obtain ⟨source, -, made⟩ := List.mem_map.1 listed
  have room : 1 + maxDepth = maxDepth + 1 := Nat.add_comm 1 maxDepth
  exact RawValue.within_of_sanitize? room (Nat.le_refl 1) (Prod.mk.inj made).2

theorem within_of_lookup_sanitize {raw : RawContext} {name : String} {value : Value}
    (h : (sanitize raw).vars.lookup name = some value) : value.Within 1 :=
  within_of_mem_sanitize (Entries.mem_of_lookup h)

namespace HostView

variable (view : HostView) (world : World) (key : String) (reads : List Read)

/-- A read of an unsafe key is not made. -/
theorem get_of_not_safe (h : isSafeKey key = false) :
    view.get world key reads = (.absent, reads) := by
  rw [get, h]
  rfl

theorem get_of_safe (h : isSafeKey key = true) :
    view.get world key reads =
      (((world.get reads view.object key).bind (·.sanitize? (view.depth + 1))).getD .absent,
        ⟨view.object, key⟩ :: reads) := by
  rw [get, h]
  rfl

/-- What a view answers comes of raw data one level below it, or is absent. -/
theorem get_eq_absent_or :
    (view.get world key reads).1 = .absent ∨
      ∃ raw : RawValue, raw.sanitize? (view.depth + 1) =
        some (view.get world key reads).1 := by
  cases safe : isSafeKey key with
  | false =>
    rw [view.get_of_not_safe world key reads safe]
    exact .inl rfl
  | true =>
    rw [view.get_of_safe world key reads safe]
    cases answer : (world.get reads view.object key).bind (·.sanitize? (view.depth + 1)) with
    | none => exact .inl rfl
    | some value =>
      obtain ⟨raw, -, made⟩ := Option.bind_eq_some_iff.1 answer
      exact .inr ⟨raw, made⟩

/-- What a view answers keeps the bounds of the level below it. -/
theorem get_within (shallow : view.depth ≤ maxDepth) :
    (view.get world key reads).1 = .absent ∨
      (view.get world key reads).1.Within (view.depth + 1) := by
  rcases view.get_eq_absent_or world key reads with absent | ⟨raw, made⟩
  · exact .inl absent
  · have room : view.depth + 1 + (maxDepth - view.depth) = maxDepth + 1 := by omega
    exact .inr (RawValue.within_of_sanitize? room (Nat.le_add_left 1 view.depth) made)

end HostView

end GuardedExpr
