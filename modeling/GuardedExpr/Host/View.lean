import GuardedExpr.Fault
import GuardedExpr.Host.Sanitize

/-!
# Views of host objects

Objects of the host are not copied into a context. A view reads them when it is
asked, one key at a time, and sanitizes each answer one level below itself. Reads are
kept, since they can be seen by the host and since a host may answer a later read
otherwise than an earlier one.
-/

namespace GuardedExpr

/-- A read that an object of the host was asked for. -/
structure Read where
  object : ObjectId
  key : String
deriving DecidableEq, Repr

/-- How the objects of the host behave. -/
structure World where
  /-- The answer of an object to a read, given the reads made so far, the latest first.
  With these a host can answer the same read with a new object each time. -/
  get : List Read → ObjectId → String → Option RawValue
  /-- The keys that an object lists. -/
  keys : ObjectId → List String

/-- Reading objects of the host, with the reads made so far, the latest first. -/
abbrev ReadM := StateM (List Read)

namespace World

/-- Asks an object for a key. -/
def ask (world : World) (object : ObjectId) (key : String) :
    ReadM (Option RawValue) :=
  fun reads => (world.get reads object key, ⟨object, key⟩ :: reads)

end World

namespace HostView

/-- Reads a property. Unsafe keys are not even asked for; what is missing
or callable is absent. -/
def get (view : HostView) (world : World) (key : String) : ReadM Value := do
  if isSafeKey key then
    let answer ← world.ask view.object key
    return (answer.bind (·.sanitize? (view.depth + 1))).getD .absent
  else return .absent

/-- The keys of `candidates` that have a value and no callable behind them. -/
def readable (view : HostView) (world : World) : List String → ReadM (List String)
  | [] => return []
  | key :: candidates => do
    let answer ← world.ask view.object key
    let others ← readable view world candidates
    return if answer.any (!·.isCallable) then key :: others else others

/-- The safe keys that the object lists and that can be read, in its order. -/
def keys (view : HostView) (world : World) : ReadM (List String) :=
  view.readable world ((world.keys view.object).filter isSafeKey)

/-- Writes are always refused. -/
def set (_ : HostView) (key : String) (_ : Value) : Except Fault Unit :=
  .error (.security (.readOnly key))

def sameObject (view other : HostView) : Bool :=
  view.object == other.object

/-- A picture of the view for the developer. -/
def picture (view : HostView) (world : World) : ReadM String := do
  let keys ← view.keys world
  return "HostView \x7b keys: [" ++ ", ".intercalate (keys.map quoted) ++ "], depth: " ++
    toString view.depth ++ " \x7d"

end HostView

end GuardedExpr
