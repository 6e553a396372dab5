import GuardedExpr.Proofs.Host.Visible

/-!
# What is found at a path

A path leads through the entries of maps and the elements of lists. Where it leads in a
sanitized context depends only on where it leads through the visible part of the raw
context, and on how many steps it has.
-/

namespace GuardedExpr

/-- A step into a map or into a list. -/
inductive Step where
  | key (name : String)
  | index (i : Nat)
deriving DecidableEq, Repr

namespace Step

/-- What a place that a step leads to holds for raw data at `depth`. A slot of a list
always holds something. -/
def holds (depth : Nat) (raw : RawValue) : Step → Option Value
  | .key _ => raw.sanitize? depth
  | .index _ => some ((raw.sanitize? depth).getD .absent)

def isIndex : Step → Bool
  | .key _ => false
  | .index _ => true

/-- The last of a step and the steps behind it. -/
def last (step : Step) : List Step → Step
  | [] => step
  | next :: steps => last next steps

end Step

namespace Value

def step? : Step → Value → Option Value
  | .key name, .map entries => entries.lookup name
  | .index i, .list items => items[i]?
  | _, _ => none

def walk? : List Step → Value → Option Value
  | [], value => some value
  | step :: steps, value => (value.step? step).bind (walk? steps)

end Value

/-- The value at a path in a context. -/
def Context.at? (context : Context) (name : String) (steps : List Step) : Option Value :=
  (context.vars.lookup name).bind (Value.walk? steps)

namespace RawValue

/-- The raw data that a visible step leads to. -/
def step? : Step → RawValue → Option RawValue
  | .key name, .map entries => (visibleEntries entries).lookup name
  | .index i, .list items => if i < maxListLength then items[i]? else none
  | _, _ => none

def walk? : List Step → RawValue → Option RawValue
  | [], raw => some raw
  | step :: steps, raw => (raw.step? step).bind (walk? steps)

end RawValue

/-- The raw data that a path of visible steps leads to. -/
def RawContext.visible? (raw : RawContext) (name : String) (steps : List Step) :
    Option RawValue :=
  ((visibleEntries raw).lookup name).bind (RawValue.walk? steps)

/-- A value shows raw data at `level`. Of lists and maps only the
outermost layer is compared. -/
inductive Shows (level : Nat) : RawValue → Value → Prop
  | null : Shows level .null .null
  | bool (b : Bool) : Shows level (.bool b) (.bool b)
  | number (x : Float) : Shows level (.number x) (.number x)
  | text (s : String) : Shows level (.text s) (.text s)
  | list {items : List RawValue} {values : List Value}
      (h : values.length = min items.length maxListLength) :
      Shows level (.list items) (.list values)
  | map {entries : List (String × RawValue)} {values : Entries Value}
      (h : values.keys = ((visibleEntries entries).filter fun e =>
        !e.2.isCallable).map Prod.fst) :
      Shows level (.map entries) (.map values)
  | object (id : ObjectId) : Shows level (.object id) (.host ⟨id, level⟩)

theorem cutAt_of_le {depth : Nat} (h : depth ≤ maxDepth) (value : Value) :
    cutAt depth value = value := by
  rw [cutAt, if_neg (Nat.not_lt.2 h)]

theorem cutAt_of_lt {depth : Nat} (h : maxDepth < depth) (value : Value) :
    cutAt depth value = .map [] := by
  rw [cutAt, if_pos h]

namespace RawValue

variable {raw : RawValue} {depth : Nat}

theorem exists_shows (h : raw.isCallable = false) (hdepth : depth ≤ maxDepth) :
    ∃ value, raw.sanitize? depth = some value ∧ Shows depth raw value := by
  cases raw with
  | callable run => cases h
  | null => exact ⟨.null, by rw [sanitize?, cutAt_of_le hdepth], .null⟩
  | bool b => exact ⟨.bool b, by rw [sanitize?, cutAt_of_le hdepth], .bool b⟩
  | number x => exact ⟨.number x, by rw [sanitize?, cutAt_of_le hdepth], .number x⟩
  | text s => exact ⟨.text s, by rw [sanitize?, cutAt_of_le hdepth], .text s⟩
  | object id => exact ⟨.host ⟨id, depth⟩, by rw [sanitize?, cutAt_of_le hdepth], .object id⟩
  | list items =>
    refine ⟨_, by rw [sanitize?, cutAt_of_le hdepth], .list ?_⟩
    rw [length_keptItems, sanitizeItems_eq_map, List.length_map]
  | map entries =>
    exact ⟨_, by rw [sanitize?, cutAt_of_le hdepth],
      .map (keys_keptEntries (depth + 1) entries)⟩

theorem sanitize?_of_lt (h : raw.isCallable = false) (hdepth : maxDepth < depth) :
    raw.sanitize? depth = some (.map []) := by
  cases raw with
  | callable run => cases h
  | _ => rw [sanitize?, cutAt_of_lt hdepth]

theorem holds_of_not_callable (h : raw.isCallable = false) (place : Step) :
    place.holds depth raw = raw.sanitize? depth := by
  cases place with
  | key name => rfl
  | index i =>
    cases kept : raw.sanitize? depth with
    | none => rw [sanitize?_eq_none_iff.1 kept] at h; cases h
    | some value => rw [Step.holds, kept, Option.getD_some]

theorem holds_of_callable (h : raw.isCallable = true) (place : Step) :
    place.holds depth raw = if place.isIndex then some .absent else none := by
  have nothing : raw.sanitize? depth = none := sanitize?_eq_none_iff.2 h
  cases place with
  | key name => exact nothing
  | index i =>
    rw [Step.holds, nothing]
    rfl

/-- A step into what raw data sanitize to is a visible step into the raw data. -/
theorem bind_step?_sanitize? (h : raw.KeysUnique) (hdepth : depth ≤ maxDepth) (step : Step) :
    (raw.sanitize? depth).bind (Value.step? step) =
      (raw.step? step).bind fun part => step.holds (depth + 1) part := by
  cases raw with
  | callable run => cases step <;> rfl
  | list items =>
    rw [sanitize?, cutAt_of_le hdepth, Option.bind_some]
    cases step with
    | key name => rfl
    | index i =>
      rw [Value.step?, getElem?_keptItems, RawValue.step?]
      split
      · cases items[i]? <;> rfl
      · rfl
  | map entries =>
    rw [sanitize?, cutAt_of_le hdepth, Option.bind_some]
    cases step with
    | key name => exact lookup_keptEntries h.nodup (depth + 1) name
    | index i => rfl
  | _ =>
    rw [sanitize?, cutAt_of_le hdepth, Option.bind_some]
    cases step <;> rfl

theorem keysUnique_of_step? (h : raw.KeysUnique) {step : Step} {part : RawValue}
    (hpart : raw.step? step = some part) : part.KeysUnique := by
  cases raw with
  | list items =>
    cases step with
    | key name => cases hpart
    | index i =>
      rw [RawValue.step?] at hpart
      split at hpart
      · exact ItemsKeysUnique.of_mem h (List.mem_of_getElem? hpart)
      · cases hpart
  | map entries =>
    cases step with
    | key name =>
      have visible : (name, part) ∈ visibleEntries entries := Entries.mem_of_lookup hpart
      exact EntriesKeysUnique.of_mem h ((visibleEntries_sublist entries).subset visible)
    | index i => cases hpart
  | _ => cases step <;> cases hpart

theorem bind_walk?_cons (start : Option Value) (step : Step) (steps : List Step) :
    start.bind (Value.walk? (step :: steps)) =
      (start.bind (Value.step? step)).bind (Value.walk? steps) := by
  rw [Option.bind_assoc]
  rfl

/-- Walking on from the place of raw data is walking through the visible part of the data. -/
theorem bind_walk?_holds (h : raw.KeysUnique) (hdepth : depth ≤ maxDepth + 1) (place : Step)
    (steps : List Step) :
    (place.holds depth raw).bind (Value.walk? steps) =
      (raw.walk? steps).bind fun found =>
        if depth + steps.length ≤ maxDepth + 1 then
          (place.last steps).holds (depth + steps.length) found
        else none := by
  induction steps generalizing raw depth place with
  | nil =>
    rw [RawValue.walk?, Option.bind_some, List.length_nil, Nat.add_zero, if_pos hdepth]
    exact Option.bind_fun_some _
  | cons step steps ih =>
    rw [bind_walk?_cons]
    cases callable : raw.isCallable with
    | true =>
      have inside : raw.step? step = none := by
        cases raw with
        | callable run => cases step <;> rfl
        | _ => cases callable
      rw [holds_of_callable callable, RawValue.walk?, inside]
      cases place with
      | key name => rfl
      | index i => cases step <;> rfl
    | false =>
      rw [holds_of_not_callable callable]
      rcases Nat.lt_or_ge maxDepth depth with below | above
      · -- The place is on the level of empty maps, and every path leads below it.
        have beyond : ¬ depth + (step :: steps).length ≤ maxDepth + 1 := by
          rw [List.length_cons]
          omega
        simp only [if_neg beyond, Option.bind_fun_none]
        rw [sanitize?_of_lt callable below]
        cases step <;> rfl
      · rw [bind_step?_sanitize? h above, RawValue.walk?]
        cases inside : raw.step? step with
        | none => rfl
        | some part =>
          have further := ih (keysUnique_of_step? h inside) (Nat.succ_le_succ above) step
          have level : depth + 1 + steps.length = depth + (step :: steps).length := by
            rw [List.length_cons, Nat.add_assoc, Nat.add_comm 1]
          rw [level] at further
          exact further

/-- What a place at any level holds for raw data, callables apart. -/
theorem holds_shows (h : raw.isCallable = false) (place : Step) (level : Nat) :
    let found := if level ≤ maxDepth + 1 then place.holds level raw else none
    (level ≤ maxDepth → ∃ shown, found = some shown ∧ Shows level raw shown) ∧
      (level = maxDepth + 1 → found = some (.map [])) ∧
      (maxDepth + 1 < level → found = none) := by
  intro found
  refine ⟨?_, ?_, ?_⟩
  · intro shallow
    have kept : found = raw.sanitize? level := by
      rw [← holds_of_not_callable h place]
      exact if_pos (Nat.le_succ_of_le shallow)
    rw [kept]
    exact exists_shows h shallow
  · intro edge
    have kept : found = raw.sanitize? level := by
      rw [← holds_of_not_callable h place]
      exact if_pos (Nat.le_of_eq edge)
    rw [kept]
    exact sanitize?_of_lt h (edge ▸ Nat.lt_succ_self maxDepth)
  · intro deep
    exact if_neg (Nat.not_le.2 deep)

end RawValue

/-- A walk in a sanitized context is a walk through the visible part of the raw context, as
deep as there are values. -/
theorem at?_sanitize {raw : RawContext} (h : RawValue.EntriesKeysUnique raw) (name : String)
    (steps : List Step) :
    (sanitize raw).at? name steps =
      (RawContext.visible? raw name steps).bind fun part =>
        if steps.length + 1 ≤ maxDepth + 1 then
          ((Step.key name).last steps).holds (steps.length + 1) part
        else none := by
  have top : (sanitize raw).vars.lookup name =
      ((visibleEntries raw).lookup name).bind fun part => (Step.key name).holds 1 part :=
    lookup_keptEntries h.nodup 1 name
  rw [Context.at?, top, RawContext.visible?]
  cases start : (visibleEntries raw).lookup name with
  | none => rfl
  | some part =>
    have entry : (name, part) ∈ visibleEntries raw := Entries.mem_of_lookup start
    have unique : part.KeysUnique := h.of_mem ((visibleEntries_sublist raw).subset entry)
    have shallow : 1 ≤ maxDepth + 1 := by decide
    have further := RawValue.bind_walk?_holds unique shallow (.key name) steps
    rw [Nat.add_comm 1] at further
    exact further

/-- What is found in a sanitized context is decided by the visible
part of the raw context. -/
theorem sanitize_at {raw : RawContext} (h : RawValue.EntriesKeysUnique raw) (name : String)
    (steps : List Step) :
    let found := (sanitize raw).at? name steps
    let level := steps.length + 1
    match RawContext.visible? raw name steps with
    | none => found = none
    | some (.callable _) =>
      found =
        if level ≤ maxDepth + 1 ∧ ((Step.key name).last steps).isIndex then some .absent
        else none
    | some value =>
      (level ≤ maxDepth → ∃ shown, found = some shown ∧ Shows level value shown) ∧
        (level = maxDepth + 1 → found = some (.map [])) ∧
        (maxDepth + 1 < level → found = none) := by
  intro found level
  have walked : found = (RawContext.visible? raw name steps).bind fun part =>
      if level ≤ maxDepth + 1 then ((Step.key name).last steps).holds level part else none :=
    at?_sanitize h name steps
  cases there : RawContext.visible? raw name steps with
  | none =>
    rw [there] at walked
    exact walked
  | some part =>
    rw [there, Option.bind_some] at walked
    cases callable : part.isCallable with
    | true =>
      have slot : found =
          if level ≤ maxDepth + 1 ∧ ((Step.key name).last steps).isIndex then some .absent
          else none := by
        rw [walked, RawValue.holds_of_callable callable]
        by_cases shallow : level ≤ maxDepth + 1
        · simp only [shallow, if_true, true_and]
        · simp only [shallow, if_false, false_and]
      cases part with
      | callable run => exact slot
      | _ => cases callable
    | false =>
      have seen := RawValue.holds_shows callable ((Step.key name).last steps) level
      rw [← walked] at seen
      cases part with
      | callable run => cases callable
      | _ => exact seen

/-- A box with a text, a callable, and a list with a callable in its second slot. -/
def sampleBox : RawContext :=
  [("box", .map [("name", .text "lid"), ("open", .callable fun _ => .null),
    ("parts", .list [.bool true, .callable fun _ => .null])])]

theorem sanitize_at_sampleBox :
    RawValue.EntriesKeysUnique sampleBox ∧
      (∃ shown, (sanitize sampleBox).at? "box" [] = some shown ∧
        Shows 1 (.map [("name", .text "lid"), ("open", .callable fun _ => .null),
          ("parts", .list [.bool true, .callable fun _ => .null])]) shown) ∧
      (sanitize sampleBox).at? "box" [.key "open"] = none ∧
      (sanitize sampleBox).at? "box" [.key "parts", .index 1] = some .absent := by
  have unique : RawValue.EntriesKeysUnique sampleBox := by
    simp [sampleBox, RawValue.EntriesKeysUnique, RawValue.KeysUnique,
      RawValue.ItemsKeysUnique]
  have box := (sanitize_at unique "box" []).1 (by decide)
  have callable := sanitize_at unique "box" [.key "open"]
  have slot := sanitize_at unique "box" [.key "parts", .index 1]
  exact ⟨unique, box, callable, slot⟩

end GuardedExpr
