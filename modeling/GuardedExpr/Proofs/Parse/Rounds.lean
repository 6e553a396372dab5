import GuardedExpr.Proofs.Parse.Activation

/-!
# The loops of the parser round by round

The rounds of accesses and of operations are bounded by the tokens to come. Such
a bound is never reached, so a loop is one round and then the loop again, behind
the tokens of that round.
-/

namespace GuardedExpr

namespace Parse

/-- The accesses behind `object`, in as many rounds as there are tokens to come. -/
def accessing (sub : ParseM Expr) (object : Expr) : ParseM Expr := do
  accesses sub (← get).rest object

/-- The operations behind `left`, in as many rounds as there are tokens to come. -/
def operating (level : List BinaryOp) (operand : ParseM Expr) (left : Expr) :
    ParseM Expr := do
  operations level operand (← get).rest left

theorem access_eq (sub : ParseM Expr) : access sub = primary sub >>= accessing sub := rfl

theorem chain_eq (level : List BinaryOp) (operand : ParseM Expr) :
    chain level operand = operand >>= operating level operand := rfl

theorem accessing_eq {sub : ParseM Expr}
    (hreads : ∀ inner : Cursor, Reads .conditional OfParsing sub inner) (object : Expr) :
    accessing sub object = (do
      match ← peek with
      | none => return object
      | some token =>
        match token.kind with
        | .dot =>
          advance
          match ← peek with
          | none => fail (.missingProperty none)
          | some name =>
            if name.kind = .identifier then
              advance
              accessing sub (.member object name.text)
            else fail (.missingProperty (some name))
        | .leftBracket =>
          advance
          enter
          let index ← sub
          if ← accept (·.kind == .rightBracket) then
            leave
            accessing sub (.index object index)
          else failAt token.position (.unmatchedBracket (← peek))
        | _ => return object) := by
  funext start
  have again : accessing sub object start =
      accesses sub (Token.endAt 0 :: start.rest) object start :=
    accesses_budget hreads _ _ object (Nat.le_refl _) (Nat.le_succ _)
  have later : ∀ (object : Expr) (us : List Token) (stop : Cursor), start = stop.behind us →
      accesses sub start.rest object stop = accessing sub object stop := by
    rintro object us stop rfl
    exact accesses_budget hreads _ _ object (Cursor.length_le_of_behind (Nat.le_refl _))
      (Nat.le_refl _)
  rw [again, accesses, peek_bind, peek_bind]
  cases hnext : start.next? with
  | none => rfl
  | some token =>
    obtain ⟨inside, next, rfl⟩ := Cursor.eq_behind_of_next? hnext
    cases hk : token.kind with
    | dot =>
      simp only [hk, advance_bind inside, peek_bind]
      cases hname : next.next? with
      | none => rfl
      | some name =>
        obtain ⟨inside, next, rfl⟩ := Cursor.eq_behind_of_next? hname
        by_cases hname : name.kind = .identifier
        · simp only [if_pos hname, advance_bind inside]
          exact later _ [token, name] next rfl
        · simp only [if_neg hname]
    | leftBracket =>
      have hagree : InnerAgree next.nesting (next.rest.length + 1) sub sub :=
        ⟨fun _ _ _ _ => rfl, hreads⟩
      simp only [hk, advance_bind inside]
      apply hagree.enter_bind_congr (Nat.lt_succ_self _) rfl
      intro _ key us stop hkey
      subst hkey
      refine accept_bind_congr ?_ rfl
      intro right last hlast
      obtain ⟨outer, rfl, rfl⟩ := Cursor.exists_of_deeper_eq_behind hlast
      simp only [↓reduceIte, leave_bind]
      exact later _ (token :: (us ++ [right])) outer (by simp)
    | _ => simp only [hk]

theorem operating_eq {level : List BinaryOp} {category : Category} {operand : ParseM Expr}
    (hreads : ∀ start : Cursor, Reads category OfParsing operand start) (left : Expr) :
    operating level operand left = (do
      match (← peek).bind (binaryOp? level) with
      | none => return left
      | some op =>
        advance
        let right ← operand
        operating level operand (.binary op left right)) := by
  funext start
  have again : operating level operand left start =
      operations level operand (Token.endAt 0 :: start.rest) left start :=
    operations_budget hreads _ _ left (Nat.le_refl _) (Nat.le_succ _)
  rw [again, operations, peek_bind, peek_bind]
  cases hnext : start.next?.bind (binaryOp? level) with
  | none => rfl
  | some op =>
    obtain ⟨token, inside, -, next, rfl⟩ := exists_of_bind_binaryOp?_eq_some hnext
    simp only [advance_bind inside]
    apply bind_congr rfl
    intro right stop hstop
    obtain ⟨us, rfl, -⟩ := (hreads next).exists_of_eq_ok hstop
    exact operations_budget hreads _ _ _
      (Cursor.length_le_of_behind (Cursor.length_le_of_behind (Nat.le_refl _)))
      (Nat.le_refl _)

end Parse

end GuardedExpr
