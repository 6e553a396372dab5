import GuardedExpr.Proofs.Host.Bounds

/-!
# Sanitizing again

A context can be handed in again as raw data: a view as the object behind it, and an
absent slot of a list as a callable. Sanitizing gives it back as it was, since what is
sanitized keeps the bounds of its level, and a value that keeps the bounds of its level
passes that level unchanged.
-/

namespace GuardedExpr

section

variable (run : List Value → Value)

mutual

/-- A value as raw data, with a callable for what is absent. -/
def Value.toRaw : Value → RawValue
  | .absent => .callable run
  | .null => .null
  | .bool b => .bool b
  | .number x => .number x
  | .text s => .text s
  | .list items => .list (Value.itemsToRaw items)
  | .map entries => .map (Value.entriesToRaw entries)
  | .host view => .object view.object

def Value.itemsToRaw : List Value → List RawValue
  | [] => []
  | item :: items => item.toRaw :: Value.itemsToRaw items

def Value.entriesToRaw : List (String × Value) → List (String × RawValue)
  | [] => []
  | (key, value) :: entries => (key, value.toRaw) :: Value.entriesToRaw entries

end

def Context.toRaw (context : Context) : RawContext :=
  Value.entriesToRaw run context.vars

theorem Value.itemsToRaw_eq_map (items : List Value) :
    Value.itemsToRaw run items = items.map (Value.toRaw run) := by
  induction items with
  | nil => rfl
  | cons item items ih => rw [Value.itemsToRaw, ih, List.map_cons]

theorem Value.entriesToRaw_eq_map (entries : Entries Value) :
    Value.entriesToRaw run entries = entries.map fun entry =>
      (entry.1, entry.2.toRaw run) := by
  induction entries with
  | nil => rfl
  | cons entry entries ih => rw [Value.entriesToRaw, ih, List.map_cons]

end

/-! ## What a level lets pass -/

variable {run : List Value → Value} {level : Nat}

theorem keptItems_itemsToRaw {items : List Value} (short : items.length ≤ maxListLength)
    (same : ∀ item ∈ items, ((item.toRaw run).sanitize? level).getD .absent = item) :
    keptItems (RawValue.sanitizeItems level (Value.itemsToRaw run items)) = items := by
  rw [RawValue.sanitizeItems_eq_map, Value.itemsToRaw_eq_map, List.map_map, keptItems,
    List.take_of_length_le (by rwa [List.length_map]), List.map_map]
  calc items.map ((fun item => item.getD .absent) ∘ (·.sanitize? level) ∘ (·.toRaw run))
      = items.map id := List.map_congr_left same
    _ = items := List.map_id items

theorem keptEntries_entriesToRaw {entries : Entries Value}
    (short : entries.length ≤ maxMapKeys)
    (safe : ∀ key ∈ entries.keys, isSafeKey key = true)
    (same : ∀ entry ∈ entries, (entry.2.toRaw run).sanitize? level = some entry.2) :
    keptEntries (RawValue.sanitizeEntries level (Value.entriesToRaw run entries)) =
      entries := by
  have passed : RawValue.sanitizeEntries level (Value.entriesToRaw run entries) =
      entries.map fun entry => (entry.1, some entry.2) := by
    rw [RawValue.sanitizeEntries_eq_map, Value.entriesToRaw_eq_map, List.map_map]
    refine List.map_congr_left fun entry there => ?_
    rw [Function.comp_apply, same entry there]
  have admitted : ∀ entry ∈ entries.map fun entry => (entry.1, some entry.2),
      isSafeKey entry.1 = true := by
    intro entry there
    obtain ⟨source, listed, rfl⟩ := List.mem_map.1 there
    exact safe source.1 (Entries.mem_keys_of_mem listed)
  rw [passed, keptEntries, List.filter_eq_self.2 admitted,
    List.take_of_length_le (by rwa [List.length_map]), List.filterMap_map]
  exact List.filterMap_some

/-- A value that keeps the bounds of a level passes it unchanged. -/
theorem Value.Within.sanitize?_toRaw {value : Value} (h : value.Within level) :
    (value.toRaw run).sanitize? level = some value := by
  induction h with
  | @list level items shallow short below ih =>
    have slots :
        ∀ item ∈ items, ((item.toRaw run).sanitize? (level + 1)).getD .absent = item := by
      intro item there
      by_cases absent : item = .absent
      · rw [absent]
        rfl
      · rw [ih item there absent, Option.getD_some]
    rw [toRaw, RawValue.sanitize?, cutAt_of_le shallow, keptItems_itemsToRaw short slots]
  | map shallow short safe below ih =>
    rw [toRaw, RawValue.sanitize?, cutAt_of_le shallow,
      keptEntries_entriesToRaw short safe ih]
  | cut => exact congrArg some (cutAt_of_lt (Nat.lt_succ_self maxDepth) _)
  | null shallow | bool shallow | number shallow | text shallow | host _ shallow =>
    rw [toRaw, RawValue.sanitize?, cutAt_of_le shallow]

/-- A sanitized context that is handed in again comes back the same. -/
theorem sanitize_toRaw_sanitize (run : List Value → Value) (raw : RawContext) :
    sanitize ((sanitize raw).toRaw run) = sanitize raw := by
  have passes : ∀ entry ∈ (sanitize raw).vars,
      (entry.2.toRaw run).sanitize? 1 = some entry.2 :=
    fun _ there => (within_of_mem_sanitize there).sanitize?_toRaw
  exact congrArg Context.mk (keptEntries_entriesToRaw (length_keptEntries_le _)
    (fun _ => isSafeKey_of_mem_keptEntries) passes)

end GuardedExpr
