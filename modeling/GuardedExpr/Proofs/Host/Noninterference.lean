import GuardedExpr.Expr.Eval
import GuardedExpr.Proofs.Host.Alike

/-!
# Noninterference

An evaluation takes the same course in alike worlds over alike data: the value, the fault
and the reads of host objects are the same.
-/

namespace GuardedExpr

/-- After any reads, the objects of the two worlds answer every safe key alike. Their
answers to other keys, and the keys that they list, are free. -/
def World.Alike (world world' : World) : Prop :=
  ∀ reads object key, isSafeKey key = true →
    Option.Rel RawValue.Alike (world.get reads object key) (world'.get reads object key)

theorem sanitize_eq_of_alike {raw raw' : RawContext}
    (h : RawValue.EntriesAlike maxMapKeys raw raw') : sanitize raw = sanitize raw' := by
  rw [sanitize, sanitize, keptEntries, keptEntries, h.take_sanitizeEntries_eq]

theorem RawValue.bind_sanitize?_eq {answer answer' : Option RawValue}
    (h : Option.Rel RawValue.Alike answer answer') (depth : Nat) :
    answer.bind (·.sanitize? depth) = answer'.bind (·.sanitize? depth) := by
  cases h with
  | none => rfl
  | some h => exact h.sanitize?_eq depth

section

variable {world world' : World} (h : world.Alike world')
include h

theorem HostView.get_eq_of_alike (view : HostView) (key : String) :
    view.get world key = view.get world' key := by
  rw [HostView.get, HostView.get]
  cases hkey : isSafeKey key with
  | false => rfl
  | true =>
    funext reads
    have answers :=
      RawValue.bind_sanitize?_eq (h reads view.object key hkey) (view.depth + 1)
    show (((world.get reads view.object key).bind _).getD Value.absent, _) = _
    rw [answers]
    rfl

theorem Value.member_eq_of_alike (object : Value) (property : String) :
    object.member world property = object.member world' property := by
  cases object with
  | host view => rw [Value.member, Value.member, view.get_eq_of_alike h]
  | _ => rfl

theorem Value.select_eq_of_alike (object key : Value) :
    object.select world key = object.select world' key := by
  rw [Value.select, Value.select]
  cases key.asKey? with
  | none => rfl
  | some key =>
    cases object with
    | host view => exact view.get_eq_of_alike h key
    | _ => rfl

theorem Scope.eval_eq_of_alike (context : Context) (ceiling : Nat) (expr : Expr) :
    Scope.eval ⟨world, context, ceiling⟩ expr =
      Scope.eval ⟨world', context, ceiling⟩ expr := by
  induction expr with
  | literal v => rfl
  | identifier name => rfl
  | binary op left right ihl ihr => rw [Scope.eval, Scope.eval, ihl, ihr]
  | unary op operand ih => rw [Scope.eval, Scope.eval, ih]
  | member object property ih =>
    rw [Scope.eval, Scope.eval, ih]
    simp only [Value.member_eq_of_alike h]
  | index object index iho ihi =>
    rw [Scope.eval, Scope.eval, iho, ihi]
    simp only [Value.select_eq_of_alike h]
  | conditional test consequent alternate iht ihc iha =>
    rw [Scope.eval, Scope.eval, iht, ihc, iha]

end

/-- What an expression must not see does not change what comes of it, nor what it reads. -/
theorem run_eq_of_alike {world world' : World} {raw raw' : RawContext}
    (hworld : world.Alike world') (hraw : RawValue.EntriesAlike maxMapKeys raw raw')
    (ceiling : Nat) (expr : Expr) :
    Scope.run ⟨world, sanitize raw, ceiling⟩ expr =
      Scope.run ⟨world', sanitize raw', ceiling⟩ expr := by
  rw [Scope.run, Scope.run, sanitize_eq_of_alike hraw, Scope.eval_eq_of_alike hworld]

/-- Answers safe keys with a record of the key and all other keys with a secret. -/
def secretive (secret : Float) (listed : List String) : World where
  get _ _ key :=
    if isSafeKey key then some (.map [("name", .text key)]) else some (.number secret)
  keys _ := listed

theorem run_eq_of_alike_secretive :
    (secretive 1 []).Alike (secretive 2 ["__pin"]) ∧
      RawValue.EntriesAlike maxMapKeys [("__pin", .number 1), ("box", .object ⟨0⟩)]
        [("box", .object ⟨0⟩), ("eval", .null)] ∧
      Scope.run ⟨secretive 1 [], sanitize [("__pin", .number 1), ("box", .object ⟨0⟩)], 100⟩
          (.member (.identifier "box") "lid") =
        Scope.run ⟨secretive 2 ["__pin"],
          sanitize [("box", .object ⟨0⟩), ("eval", .null)], 100⟩
          (.member (.identifier "box") "lid") := by
  have hworld : (secretive 1 []).Alike (secretive 2 ["__pin"]) := by
    intro reads object key hkey
    simp only [secretive, hkey, if_true]
    exact .some (.refl _)
  have hraw : RawValue.EntriesAlike maxMapKeys [("__pin", .number 1), ("box", .object ⟨0⟩)]
      [("box", .object ⟨0⟩), ("eval", .null)] :=
    .skipLeft (by decide) (.cons (by decide) (.object ⟨0⟩) (.skipRight (by decide) (.nil _)))
  exact ⟨hworld, hraw, run_eq_of_alike hworld hraw 100 _⟩

end GuardedExpr
