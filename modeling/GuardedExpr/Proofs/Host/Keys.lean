import GuardedExpr.Proofs.Host.Bounds
import Mathlib

/-!
# The keys of a view

A view lists a key by the raw answer of its object, and reads it by what the answer
sanitizes to. The two agree since only a callable sanitizes to nothing and nothing
sanitizes to an absent value, also below the deepest level.
-/

namespace GuardedExpr

/-- The object answers by the key alone: what was read before makes no difference. -/
def World.AnswersByKey (world : World) (object : ObjectId) : Prop :=
  ∀ (reads reads' : List Read) (key : String),
    world.get reads object key = world.get reads' object key

namespace RawValue

/-- There is data behind an answer that a view shows something of. -/
def shown (answer : Option RawValue) : Bool :=
  answer.any fun raw => !raw.isCallable

theorem sanitize?_ne_absent (depth : Nat) (raw : RawValue) :
    raw.sanitize? depth ≠ some .absent := by
  cases raw with
  | callable run =>
    intro made
    cases made
  | _ =>
    rw [sanitize?, cutAt]
    split <;> simp

/-- What is made of an answer is absent just when a view shows nothing of it. -/
theorem getD_sanitize?_ne_absent_iff {depth : Nat} {answer : Option RawValue} :
    (answer.bind (·.sanitize? depth)).getD .absent ≠ .absent ↔ shown answer = true := by
  cases answer with
  | none => simp [shown]
  | some raw =>
    rw [shown, Option.any_some, Bool.not_eq_true', Option.bind_some, ← Bool.not_eq_true,
      ← @sanitize?_eq_none_iff depth, not_iff_not]
    cases made : raw.sanitize? depth with
    | none => simp
    | some value =>
      have present : value ≠ .absent := fun absent =>
        sanitize?_ne_absent depth raw (absent ▸ made)
      simp [present]

end RawValue

namespace HostView

variable {view : HostView} {world : World} {key : String}

/-- A view reads something under a key just when the key is safe and the answer is shown. -/
theorem get_ne_absent_iff (reads : List Read) :
    (view.get world key reads).1 ≠ .absent ↔
      isSafeKey key = true ∧ RawValue.shown (world.get reads view.object key) = true := by
  cases safe : isSafeKey key with
  | false =>
    rw [view.get_of_not_safe world key reads safe]
    simp
  | true =>
    rw [view.get_of_safe world key reads safe, RawValue.getD_sanitize?_ne_absent_iff]
    simp

/-- Of the candidates those are kept whose answers are shown, whenever
the object is asked. -/
theorem readable_eq_filter (byKey : world.AnswersByKey view.object)
    (candidates : List String) (reads reads' : List Read) :
    (view.readable world candidates reads).1 =
      candidates.filter fun key => RawValue.shown (world.get reads' view.object key) := by
  induction candidates generalizing reads with
  | nil => rfl
  | cons key candidates ih =>
    have step : (view.readable world (key :: candidates) reads).1 =
        if RawValue.shown (world.get reads view.object key) then
          key :: (view.readable world candidates (⟨view.object, key⟩ :: reads)).1
        else (view.readable world candidates (⟨view.object, key⟩ :: reads)).1 := rfl
    rw [step, ih, byKey reads reads' key, List.filter_cons]

theorem mem_keys_iff (byKey : world.AnswersByKey view.object) (reads reads' : List Read) :
    key ∈ (view.keys world reads).1 ↔
      key ∈ world.keys view.object ∧ (view.get world key reads').1 ≠ .absent := by
  rw [keys, readable_eq_filter byKey _ reads reads', List.mem_filter, List.mem_filter,
    get_ne_absent_iff, and_assoc]

theorem keys_eq_filter_mem (byKey : world.AnswersByKey view.object) (reads : List Read) :
    (view.keys world reads).1 =
      (world.keys view.object).filter fun key => key ∈ (view.keys world reads).1 := by
  have kept : (view.keys world reads).1 = (world.keys view.object).filter fun key =>
      RawValue.shown (world.get [] view.object key) && isSafeKey key := by
    rw [keys, readable_eq_filter byKey _ reads [], List.filter_filter]
  refine kept.trans (List.filter_congr fun key listed => ?_)
  rw [Bool.eq_iff_iff, decide_eq_true_iff, mem_keys_iff byKey reads [], get_ne_absent_iff,
    Bool.and_eq_true, and_comm, and_iff_right listed]

/-- A view lists the keys of its object that it reads something under, each as often as the
object does and in its order. Whenever it is asked, no unsafe key is among them and no
callable is behind one. -/
theorem keys_listed_iff_readable (byKey : world.AnswersByKey view.object)
    (reads reads' : List Read) :
    (∀ key, key ∈ (view.keys world reads).1 ↔
      key ∈ world.keys view.object ∧ (view.get world key reads').1 ≠ .absent) ∧
    (view.keys world reads).1 =
      (world.keys view.object).filter (fun key => key ∈ (view.keys world reads).1) ∧
    (∀ key ∈ (view.keys world reads).1, isSafeKey key = true) ∧
    ∀ (key : String) (raw : RawValue), world.get reads' view.object key = some raw →
      raw.isCallable = true → key ∉ (view.keys world reads).1 := by
  refine ⟨fun key => mem_keys_iff byKey reads reads', keys_eq_filter_mem byKey reads, ?_, ?_⟩
  · intro key listed
    exact ((get_ne_absent_iff reads').1 ((mem_keys_iff byKey reads reads').1 listed).2).1
  · intro key raw answer callable listed
    have shown :=
      ((get_ne_absent_iff reads').1 ((mem_keys_iff byKey reads reads').1 listed).2).2
    rw [answer, RawValue.shown, Option.any_some, callable] at shown
    cases shown

-- The object names its label twice, and lists a callable, an unsafe key and
-- one it does not answer.
theorem keys_listed_iff_readable_button :
    let button : World :=
      { get := fun _ _ key =>
          if key = "label" then some (.text "Save")
          else if key = "click" then some (.callable fun _ => .null)
          else if key = "eval" then some .null
          else none
        keys := fun _ => ["label", "click", "eval", "gone", "label"] }
    let view : HostView := ⟨⟨0⟩, 50⟩
    button.AnswersByKey view.object ∧ (view.keys button []).1 = ["label", "label"] ∧
      (view.get button "label" []).1 ≠ .absent ∧ "click" ∉ (view.keys button []).1 := by
  intro button view
  have byKey : button.AnswersByKey view.object := fun _ _ _ => rfl
  obtain ⟨listed, -, -, data⟩ := keys_listed_iff_readable byKey [] []
  have keys : (view.keys button []).1 = ["label", "label"] := by decide +kernel
  refine ⟨byKey, keys, ((listed "label").1 ?_).2, data "click" _ rfl rfl⟩
  rw [keys]
  exact List.mem_cons_self

end HostView

end GuardedExpr
