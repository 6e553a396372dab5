import GuardedExpr.Entries
import GuardedExpr.Value.Comparison
import Mathlib

/-!
# Strict equality

Strict equality is symmetric and transitive, and a value is equal to itself unless there is
a NaN in it. Of two maps only the first is looked through, and the length tells that
nothing else is in the second; that is enough as no key comes twice.
-/

namespace GuardedExpr.Value

/-- No map in the value has a key twice, whatever the order of its entries. -/
inductive KeysUnique : Value → Prop
  | absent : KeysUnique .absent
  | null : KeysUnique .null
  | bool (b : Bool) : KeysUnique (.bool b)
  | number (x : Float) : KeysUnique (.number x)
  | text (s : String) : KeysUnique (.text s)
  | host (view : HostView) : KeysUnique (.host view)
  | list {items : List Value} (below : ∀ item ∈ items, KeysUnique item) :
      KeysUnique (.list items)
  | map {entries : Entries Value} (distinct : entries.keys.Nodup)
      (below : ∀ entry ∈ entries, KeysUnique entry.2) : KeysUnique (.map entries)

/-- The value is NaN or has it anywhere inside. A view has nothing inside. -/
inductive HasNaN : Value → Prop
  | number {x : Float} (nan : x.isNaN = true) : HasNaN (.number x)
  | element {items : List Value} {item : Value} (place : item ∈ items)
      (deeper : HasNaN item) :
      HasNaN (.list items)
  | entry {entries : Entries Value} {entry : String × Value} (place : entry ∈ entries)
      (deeper : HasNaN entry.2) : HasNaN (.map entries)

/-! ## One layer -/

theorem strictEqItems_iff {items others : List Value} :
    strictEqItems items others = true ↔
      items.length = others.length ∧ ∀ (i : Nat) (a b : Value),
        items[i]? = some a → others[i]? = some b → a.strictEq b = true := by
  induction items generalizing others with
  | nil => cases others <;> simp [strictEqItems]
  | cons item items ih =>
    cases others with
    | nil => simp [strictEqItems]
    | cons other others =>
      rw [strictEqItems, Bool.and_eq_true, ih, List.length_cons, List.length_cons,
        Nat.succ_inj]
      constructor
      · rintro ⟨here, length, later⟩
        refine ⟨length, fun i a b ha hb => ?_⟩
        cases i with
        | zero =>
          cases ha
          cases hb
          exact here
        | succ i => exact later i a b ha hb
      · rintro ⟨length, all⟩
        exact ⟨all 0 item other rfl rfl, length, fun i => all (i + 1)⟩

theorem strictEqEntries_iff {entries others : Entries Value} :
    strictEqEntries entries others = true ↔
      ∀ entry ∈ entries, ∃ b, others.lookup entry.1 = some b ∧
        entry.2.strictEq b = true := by
  induction entries with
  | nil => simp [strictEqEntries]
  | cons entry entries ih =>
    obtain ⟨key, a⟩ := entry
    rw [strictEqEntries, Bool.and_eq_true, ih, List.forall_mem_cons]
    cases others.lookup key <;> simp

/-- Two values are of one kind, and what they hold is strictly equal. -/
inductive Matches : Value → Value → Prop
  | absent : Matches .absent .absent
  | null : Matches .null .null
  | bool (b : Bool) : Matches (.bool b) (.bool b)
  | number {x y : Float} (same : (x == y) = true) : Matches (.number x) (.number y)
  | text (s : String) : Matches (.text s) (.text s)
  | list {items others : List Value} (length : items.length = others.length)
      (same : ∀ (i : Nat) (a b : Value),
        items[i]? = some a → others[i]? = some b → a.strictEq b = true) :
      Matches (.list items) (.list others)
  | map {entries others : Entries Value} (length : entries.length = others.length)
      (same : ∀ entry ∈ entries,
        ∃ b, others.lookup entry.1 = some b ∧ entry.2.strictEq b = true) :
      Matches (.map entries) (.map others)
  | host {view other : HostView} (same : view.object = other.object) :
      Matches (.host view) (.host other)

variable {a b c : Value}

theorem strictEq_iff_matches : a.strictEq b = true ↔ a.Matches b := by
  constructor
  · intro h
    rw [strictEq.eq_def] at h
    split at h
    case h_1 => exact .absent
    case h_2 => exact .null
    case h_3 =>
      obtain rfl := beq_iff_eq.1 h
      exact .bool _
    case h_4 => exact .number h
    case h_5 =>
      obtain rfl := beq_iff_eq.1 h
      exact .text _
    case h_6 =>
      obtain ⟨length, same⟩ := strictEqItems_iff.1 h
      exact .list length same
    case h_7 =>
      rw [Bool.and_eq_true, beq_iff_eq] at h
      exact .map h.1 (strictEqEntries_iff.1 h.2)
    case h_8 => exact .host (beq_iff_eq.1 h)
    case h_9 => cases h
  · intro h
    cases h with
    | absent | null => rfl
    | bool b => exact beq_self_eq_true b
    | number same => exact same
    | text s => exact beq_self_eq_true s
    | list length same => exact strictEqItems_iff.2 ⟨length, same⟩
    | map length same =>
      rw [strictEq, Bool.and_eq_true, beq_iff_eq]
      exact ⟨length, strictEqEntries_iff.2 same⟩
    | host same => exact beq_iff_eq.2 same

/-! ## Symmetry, transitivity, reflexivity -/

/-- Keys of which none comes twice and that are all in a map of the same
length are all its keys. -/
theorem keys_subset_of_length_eq {entries others : Entries Value}
    (distinct : entries.keys.Nodup) (length : entries.length = others.length)
    (subset : entries.keys ⊆ others.keys) :
    others.keys ⊆ entries.keys := by
  have sizes : others.keys.length ≤ entries.keys.length := by
    rw [Entries.keys, Entries.keys, List.length_map, List.length_map]
    exact Nat.le_of_eq length.symm
  exact ((List.subperm_of_subset distinct subset).perm_of_length_le sizes).symm.subset

theorem strictEq_symm (ha : a.KeysUnique) (hb : b.KeysUnique) (h : a.strictEq b = true) :
    b.strictEq a = true := by
  induction ha generalizing b with
  | list below ih =>
    cases strictEq_iff_matches.1 h with
    | list length same =>
      cases hb with
      | list below' =>
        refine strictEq_iff_matches.2 (.list length.symm fun i b a hb ha => ?_)
        exact ih a (List.mem_of_getElem? ha) (below' b (List.mem_of_getElem? hb))
          (same i a b ha hb)
  | @map entries distinct below ih =>
    cases strictEq_iff_matches.1 h with
    | @map _ others length same =>
      cases hb with
      | map distinct' below' =>
        have subset : entries.keys ⊆ others.keys := by
          intro key present
          obtain ⟨entry, there, rfl⟩ := List.mem_map.1 present
          obtain ⟨b, found, -⟩ := same entry there
          rw [← Entries.isSome_lookup_iff, found]
          rfl
        refine strictEq_iff_matches.2 (.map length.symm fun other there' => ?_)
        have present : other.1 ∈ entries.keys :=
          keys_subset_of_length_eq distinct length subset (Entries.mem_keys_of_mem there')
        obtain ⟨entry, there, key⟩ := List.mem_map.1 present
        obtain ⟨b, found, equal⟩ := same entry there
        obtain rfl : other.2 = b := by
          rw [key, Entries.lookup_of_mem distinct' there'] at found
          exact Option.some.inj found
        refine ⟨entry.2, ?_, ih entry there (below' other there') equal⟩
        rw [← key]
        exact Entries.lookup_of_mem distinct there
  | number x =>
    cases strictEq_iff_matches.1 h with
    | number same => exact strictEq_iff_matches.2 (.number (BEq.symm same))
  | host view =>
    cases strictEq_iff_matches.1 h with
    | host same => exact strictEq_iff_matches.2 (.host same.symm)
  | _ =>
    cases strictEq_iff_matches.1 h
    exact h

theorem strictEq_trans (ha : a.KeysUnique) (h : a.strictEq b = true)
    (h' : b.strictEq c = true) :
    a.strictEq c = true := by
  induction ha generalizing b c with
  | list below ih =>
    cases strictEq_iff_matches.1 h with
    | @list _ items length same =>
      cases strictEq_iff_matches.1 h' with
      | list length' same' =>
        refine strictEq_iff_matches.2 (.list (length.trans length') fun i a c ha hc => ?_)
        have inside : i < items.length := length'.symm ▸ (List.getElem?_eq_some_iff.1 hc).1
        have hb : items[i]? = some items[i] := List.getElem?_eq_getElem inside
        exact ih a (List.mem_of_getElem? ha) (same i a _ ha hb) (same' i _ c hb hc)
  | map distinct below ih =>
    cases strictEq_iff_matches.1 h with
    | map length same =>
      cases strictEq_iff_matches.1 h' with
      | map length' same' =>
        refine strictEq_iff_matches.2 (.map (length.trans length') fun entry there => ?_)
        obtain ⟨b, found, equal⟩ := same entry there
        obtain ⟨c, found', equal'⟩ := same' (entry.1, b) (Entries.mem_of_lookup found)
        exact ⟨c, found', ih entry there equal equal'⟩
  | number x =>
    cases strictEq_iff_matches.1 h with
    | number same =>
      cases strictEq_iff_matches.1 h' with
      | number same' => exact strictEq_iff_matches.2 (.number (BEq.trans same same'))
  | host view =>
    cases strictEq_iff_matches.1 h with
    | host same =>
      cases strictEq_iff_matches.1 h' with
      | host same' => exact strictEq_iff_matches.2 (.host (same.trans same'))
  | _ =>
    cases strictEq_iff_matches.1 h
    exact h'

theorem strictEq_self_iff (ha : a.KeysUnique) : a.strictEq a = true ↔ ¬ a.HasNaN := by
  induction ha with
  | number x =>
    rw [strictEq, Float.beq_self_iff]
    refine not_congr ⟨fun nan => .number ?_, fun nan => ?_⟩
    · rw [Float.isNaN_eq_decide_eq_nan]
      exact decide_eq_true nan
    · cases nan with
      | number nan =>
        rw [Float.isNaN_eq_decide_eq_nan] at nan
        exact of_decide_eq_true nan
  | @list items below ih =>
    constructor
    · intro h nan
      cases strictEq_iff_matches.1 h with
      | list length same =>
        cases nan with
        | @element _ item place deeper =>
          obtain ⟨i, at'⟩ := List.mem_iff_getElem?.1 place
          exact (ih item place).1 (same i item item at' at') deeper
    · intro clean
      refine strictEq_iff_matches.2 (.list rfl fun i a b ha hb => ?_)
      obtain rfl : a = b := Option.some.inj (ha.symm.trans hb)
      have place : a ∈ items := List.mem_of_getElem? ha
      exact (ih a place).2 fun deeper => clean (.element place deeper)
  | @map entries distinct below ih =>
    constructor
    · intro h nan
      cases strictEq_iff_matches.1 h with
      | map length same =>
        cases nan with
        | @entry _ entry place deeper =>
          obtain ⟨b, found, equal⟩ := same entry place
          rw [Entries.lookup_of_mem distinct place] at found
          obtain rfl := Option.some.inj found
          exact (ih entry place).1 equal deeper
    · intro clean
      refine strictEq_iff_matches.2 (.map rfl fun entry place => ⟨entry.2, ?_, ?_⟩)
      · exact Entries.lookup_of_mem distinct place
      · exact (ih entry place).2 fun deeper => clean (.entry place deeper)
  | _ =>
    refine ⟨fun _ => nofun, fun _ => strictEq_iff_matches.2 ?_⟩
    constructor <;> rfl

theorem strictEq_host_iff {view other : HostView} :
    (host view).strictEq (host other) = true ↔ view.object = other.object :=
  beq_iff_eq

/-- Strict equality is a partial equivalence, in which only values with a NaN in them have
no part. A view is equal to the views of its object and to no others. -/
theorem strictEq_partial_equivalence (ha : a.KeysUnique) (hb : b.KeysUnique) :
    (a.strictEq b = true → b.strictEq a = true) ∧
      (a.strictEq b = true → b.strictEq c = true → a.strictEq c = true) ∧
      (a.strictEq a = true ↔ ¬ a.HasNaN) ∧
      ∀ view other : HostView,
        (host view).strictEq (host other) = true ↔ view.object = other.object :=
  ⟨strictEq_symm ha hb, strictEq_trans ha, strictEq_self_iff ha, fun _ _ =>
    strictEq_host_iff⟩

-- The maps have their entries in two orders, and the views of one object have two depths.
theorem strictEq_partial_equivalence_reordered :
    let box : Value := .map [("lid", .number 0.0), ("in", .list [.absent, .host ⟨⟨7⟩, 2⟩])]
    let same : Value :=
      .map [("in", .list [.absent, .host ⟨⟨7⟩, 3⟩]), ("lid", .number (-0.0))]
    box.KeysUnique ∧ same.KeysUnique ∧ box.strictEq same = true ∧ same.strictEq box = true ∧
      box.strictEq box = true ∧ ¬ box.HasNaN := by
  intro box same
  have inside : ∀ view : HostView, KeysUnique (.list [.absent, .host view]) := fun view =>
    .list (List.forall_mem_cons.2 ⟨.absent, List.forall_mem_singleton.2 (.host view)⟩)
  have boxUnique : box.KeysUnique :=
    .map (by decide)
      (List.forall_mem_cons.2 ⟨.number 0.0, List.forall_mem_singleton.2 (inside _)⟩)
  have sameUnique : same.KeysUnique :=
    .map (by decide)
      (List.forall_mem_cons.2 ⟨inside _, List.forall_mem_singleton.2 (.number (-0.0))⟩)
  have equal : box.strictEq same = true := by decide +kernel
  obtain ⟨symm, trans, self, -⟩ :=
    strictEq_partial_equivalence (c := box) boxUnique sameUnique
  have whole : box.strictEq box = true := trans equal (symm equal)
  exact ⟨boxUnique, sameUnique, equal, symm equal, whole, self.1 whole⟩

end GuardedExpr.Value
