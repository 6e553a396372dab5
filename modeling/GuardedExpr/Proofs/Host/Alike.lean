import GuardedExpr.Host.View

/-!
# Data that look the same

Two pieces of raw data are alike when they differ only in what an expression must not see:
entries under unsafe keys, what is behind the limits of a list or a map, and which callable
a callable is. Two worlds are alike when their objects answer every safe key alike.
Sanitizing removes the differences.
-/

namespace GuardedExpr

mutual

inductive RawValue.Alike : RawValue → RawValue → Prop
  | null : Alike .null .null
  | bool (b : Bool) : Alike (.bool b) (.bool b)
  | number (x : Float) : Alike (.number x) (.number x)
  | text (s : String) : Alike (.text s) (.text s)
  | object (id : ObjectId) : Alike (.object id) (.object id)
  | callable (run run' : List Value → Value) : Alike (.callable run) (.callable run')
  | list {items items' : List RawValue}
      (h : RawValue.ItemsAlike maxListLength items items') :
      Alike (.list items) (.list items')
  | map {entries entries' : List (String × RawValue)}
      (h : RawValue.EntriesAlike maxMapKeys entries entries') :
      Alike (.map entries) (.map entries')

/-- The first `room` elements of two lists are alike, each to the one in its place. -/
inductive RawValue.ItemsAlike : Nat → List RawValue → List RawValue → Prop
  | beyond (items items' : List RawValue) : ItemsAlike 0 items items'
  | nil (room : Nat) : ItemsAlike room [] []
  | cons {room : Nat} {item item' : RawValue} {items items' : List RawValue}
      (head : RawValue.Alike item item') (tail : ItemsAlike room items items') :
      ItemsAlike (room + 1) (item :: items) (item' :: items')

/-- The first `room` entries under safe keys are alike and have the same keys. Unsafe keys
may stand anywhere on either side. -/
inductive RawValue.EntriesAlike :
    Nat → List (String × RawValue) → List (String × RawValue) → Prop
  | beyond (entries entries' : List (String × RawValue)) : EntriesAlike 0 entries entries'
  | nil (room : Nat) : EntriesAlike room [] []
  | cons {room : Nat} {key : String} {value value' : RawValue}
      {entries entries' : List (String × RawValue)} (safe : isSafeKey key = true)
      (head : RawValue.Alike value value') (tail : EntriesAlike room entries entries') :
      EntriesAlike (room + 1) ((key, value) :: entries) ((key, value') :: entries')
  | skipLeft {room : Nat} {key : String} {value : RawValue}
      {entries entries' : List (String × RawValue)} (hidden : isSafeKey key = false)
      (tail : EntriesAlike room entries entries') :
      EntriesAlike room ((key, value) :: entries) entries'
  | skipRight {room : Nat} {key : String} {value : RawValue}
      {entries entries' : List (String × RawValue)} (hidden : isSafeKey key = false)
      (tail : EntriesAlike room entries entries') :
      EntriesAlike room entries ((key, value) :: entries')

end

namespace RawValue

mutual

theorem Alike.refl : (raw : RawValue) → raw.Alike raw
  | .null => .null
  | .bool b => .bool b
  | .number x => .number x
  | .text s => .text s
  | .list items => .list (ItemsAlike.refl maxListLength items)
  | .map entries => .map (EntriesAlike.refl maxMapKeys entries)
  | .callable run => .callable run run
  | .object id => .object id

theorem ItemsAlike.refl :
    (room : Nat) → (items : List RawValue) → ItemsAlike room items items
  | 0, items => .beyond items items
  | room + 1, [] => .nil (room + 1)
  | room + 1, item :: items => .cons (Alike.refl item) (ItemsAlike.refl room items)

theorem EntriesAlike.refl :
    (room : Nat) → (entries : List (String × RawValue)) → EntriesAlike room entries entries
  | 0, entries => .beyond entries entries
  | room + 1, [] => .nil (room + 1)
  | room + 1, (key, value) :: entries =>
    match h : isSafeKey key with
    | true => .cons h (Alike.refl value) (EntriesAlike.refl room entries)
    | false => .skipLeft h (.skipRight h (EntriesAlike.refl (room + 1) entries))

end

mutual

theorem Alike.sanitize?_eq {raw raw' : RawValue} (depth : Nat) :
    raw.Alike raw' → raw.sanitize? depth = raw'.sanitize? depth
  | .list h => by rw [sanitize?, sanitize?, keptItems, keptItems, h.take_sanitizeItems_eq]
  | .map h => by
    rw [sanitize?, sanitize?, keptEntries, keptEntries, h.take_sanitizeEntries_eq]
  | .callable run run' => rfl
  | .null => rfl
  | .bool b => rfl
  | .number x => rfl
  | .text s => rfl
  | .object id => rfl

theorem ItemsAlike.take_sanitizeItems_eq {room : Nat} {items items' : List RawValue}
    (depth : Nat) :
    ItemsAlike room items items' →
      (sanitizeItems depth items).take room = (sanitizeItems depth items').take room
  | .beyond items items' => rfl
  | .nil room => rfl
  | .cons head tail => by
    rw [sanitizeItems, sanitizeItems, List.take_succ_cons, List.take_succ_cons,
      head.sanitize?_eq depth, tail.take_sanitizeItems_eq depth]

theorem EntriesAlike.take_sanitizeEntries_eq {room : Nat}
    {entries entries' : List (String × RawValue)} (depth : Nat) :
    EntriesAlike room entries entries' →
      ((sanitizeEntries depth entries).filter fun entry => isSafeKey entry.1).take room =
        ((sanitizeEntries depth entries').filter fun entry => isSafeKey entry.1).take room
  | .beyond entries entries' => rfl
  | .nil room => rfl
  | .cons safe head tail => by
    simp only [sanitizeEntries, List.filter_cons, safe, if_true, List.take_succ_cons]
    rw [head.sanitize?_eq depth, tail.take_sanitizeEntries_eq depth]
  | .skipLeft hidden tail => by
    simp only [sanitizeEntries, List.filter_cons, hidden, Bool.false_eq_true, if_false]
    exact tail.take_sanitizeEntries_eq depth
  | .skipRight hidden tail => by
    simp only [sanitizeEntries, List.filter_cons, hidden, Bool.false_eq_true, if_false]
    exact tail.take_sanitizeEntries_eq depth

end

end RawValue

end GuardedExpr
