import Mathlib.Data.List.Chain
import GuardedExpr.Expr.Eval
import GuardedExpr.Proofs.Host.Bounds

/-!
# What lies in a scope

A value lies at a level of a scope: a variable at the first level, and an element, an entry
or a property of an object one level below its owner. Host objects may lead back to
themselves, so a scope has no end of its own. Since each view reads one level below itself,
what lies in the scope of a sanitized context still keeps the bounds of its level, and no
chain of reads gets past the deepest level.
-/

namespace GuardedExpr

/-- The values of a scope and the levels they lie at. A property is what the object may
answer after any reads. -/
inductive Scope.Reaches (scope : Scope) : Nat → Value → Prop
  | binding {name : String} {value : Value}
      (bound : scope.context.vars.lookup name = some value) :
      Reaches scope 1 value
  | element {level i : Nat} {items : List Value} {item : Value}
      (owner : Reaches scope level (.list items)) (place : items[i]? = some item) :
      Reaches scope (level + 1) item
  | entry {level : Nat} {entries : Entries Value} {key : String} {value : Value}
      (owner : Reaches scope level (.map entries))
      (place : entries.lookup key = some value) :
      Reaches scope (level + 1) value
  | property {level : Nat} {view : HostView} (owner : Reaches scope level (.host view))
      (key : String) (reads : List Read) :
      Reaches scope (level + 1) (view.get scope.world key reads).1

namespace Scope.Reaches

variable {world : World} {raw : RawContext} {ceiling level : Nat}

/-- All that lies in the scope of a sanitized context keeps the bounds of its level. -/
theorem within {value : Value} (h : Reaches ⟨world, sanitize raw, ceiling⟩ level value) :
    value = .absent ∨ value.Within level := by
  induction h with
  | binding bound => exact .inr (within_of_lookup_sanitize bound)
  | element owner place ih =>
    rcases ih with absent | within
    · cases absent
    · cases within with
      | list shallow short below =>
        rw [or_iff_not_imp_left]
        exact below _ (List.mem_of_getElem? place)
  | entry owner place ih =>
    rcases ih with absent | within
    · cases absent
    · have listed := Entries.mem_of_lookup place
      cases within with
      | map shallow short safe below => exact .inr (below _ listed)
      | cut => cases listed
  | property owner key reads ih =>
    rcases ih with absent | within
    · cases absent
    · obtain ⟨depth, -, shallow⟩ := within.host_depth
      rw [← depth] at shallow ⊢
      exact HostView.get_within _ world key reads shallow

/-- A view in the scope knows the level it lies at. -/
theorem host_depth {view : HostView}
    (h : Reaches ⟨world, sanitize raw, ceiling⟩ level (.host view)) :
    view.depth = level ∧ 1 ≤ level ∧ level ≤ maxDepth := by
  rcases h.within with absent | within
  · cases absent
  · exact within.host_depth

end Scope.Reaches

namespace HostView

end HostView

end GuardedExpr
