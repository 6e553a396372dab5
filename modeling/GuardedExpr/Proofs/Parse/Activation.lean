import GuardedExpr.Proofs.Parse.Soundness

/-!
# How many activations are enough

Every inner conditional stands behind a token that opens it, and with one more level of
nesting open than the conditional around it. So a parser with more activations than there
are tokens to come does the same as one with more activations than there are levels to
open, on every list of tokens and down to the fault.

The rounds of the two loops are bounded in the same way: any budget as long as the tokens
to come gives the same result.
-/

namespace GuardedExpr

namespace Parse

theorem Reads.exists_of_eq_ok {category : Category} {bad : Fault → Prop} {p : ParseM Expr}
    {start stop : Cursor} {e : Expr} (h : Reads category bad p start)
    (hp : p start = .ok (e, stop)) :
    ∃ us, start = stop.behind us ∧ Derives category start.room us e := by
  rw [Reads, hp] at h
  exact h

theorem accept_bind_congr {β : Type} {wanted : Token → Bool} {f g : Bool → ParseM β}
    {start : Cursor}
    (htrue : ∀ token stop, start = Cursor.behind stop [token] → f true stop = g true stop)
    (hfalse : f false start = g false start) :
    (accept wanted >>= f) start = (accept wanted >>= g) start := by
  have stays : (∀ token ∈ start.next?, wanted token = false) →
      (accept wanted >>= f) start = (accept wanted >>= g) start := by
    intro unwanted
    rwa [accept_bind_of_eq_false unwanted, accept_bind_of_eq_false unwanted]
  cases hnext : start.next? with
  | none => exact stays (by simp [hnext])
  | some token =>
    cases hw : wanted token with
    | false => exact stays (by simpa [hnext] using hw)
    | true =>
      obtain ⟨inside, stop, rfl⟩ := Cursor.eq_behind_of_next? hnext
      rw [accept_bind_of_eq_true inside hw, accept_bind_of_eq_true inside hw]
      exact htrue token stop rfl

/-- Two parsers for inner conditionals that do the same one level deeper than `nesting`, in
front of fewer than `bound` tokens. -/
structure InnerAgree (nesting bound : Nat) (sub sub' : ParseM Expr) : Prop where
  eq : ∀ inner : Cursor, inner.nesting = nesting + 1 → inner.nesting ≤ maxNesting →
    inner.rest.length < bound → sub inner = sub' inner
  reads : ∀ inner : Cursor, Reads .conditional OfParsing sub' inner

section Agreement

variable {nesting bound : Nat} {sub sub' : ParseM Expr}

theorem InnerAgree.innerReads (h : InnerAgree nesting bound sub sub') :
    InnerReads OfParsing bound sub' :=
  ⟨fun cause position _ => ⟨cause, position, rfl⟩, fun inner _ => h.reads inner⟩

theorem InnerAgree.enter_bind_congr {β : Type} (h : InnerAgree nesting bound sub sub')
    {start : Cursor} (hstart : start.rest.length < bound)
    (hnesting : start.nesting = nesting) {f g : Expr → ParseM β}
    (hfg : start.nesting < maxNesting →
      ∀ e us stop, start = Cursor.behind stop us → f e stop.deeper = g e stop.deeper) :
    (enter >>= fun _ => sub >>= f) start = (enter >>= fun _ => sub' >>= g) start := by
  by_cases hroom : start.nesting < maxNesting
  · rw [enter_bind_of_lt hroom, enter_bind_of_lt hroom]
    have hsub : sub start.deeper = sub' start.deeper :=
      h.eq start.deeper (by simp [hnesting]) hroom hstart
    apply bind_congr hsub
    intro e stop hstop
    obtain ⟨us, hus, -⟩ := (h.reads start.deeper).exists_of_eq_ok hstop
    obtain ⟨outer, rfl, rfl⟩ := Cursor.exists_of_deeper_eq_behind hus
    exact hfg hroom e us outer rfl
  · rw [enter_bind_of_le (Nat.not_lt.1 hroom), enter_bind_of_le (Nat.not_lt.1 hroom)]

theorem primary_congr (h : InnerAgree nesting bound sub sub') {start : Cursor}
    (hnesting : start.nesting = nesting) (hstart : start.rest.length ≤ bound) :
    primary sub start = primary sub' start := by
  rw [primary, primary, peek_bind, peek_bind]
  cases hnext : start.next? with
  | none => rfl
  | some token =>
    obtain ⟨inside, next, rfl⟩ := Cursor.eq_behind_of_next? hnext
    cases hk : token.kind with
    | leftParen =>
      simp only [hk, advance_bind inside]
      apply h.enter_bind_congr (Cursor.length_lt_of_token hstart) hnesting
      intro _ e us stop hnext
      exact accept_bind_congr (fun _ _ _ => rfl) rfl
    | _ => simp only [hk]

theorem accesses_congr (h : InnerAgree nesting bound sub sub') :
    ∀ (budget : List Token) (object : Expr) {start : Cursor}, start.nesting = nesting →
      start.rest.length ≤ bound →
      accesses sub budget object start = accesses sub' budget object start
  | [], object, start, _, _ => rfl
  | _ :: budget, object, start, hnesting, hstart => by
    rw [accesses, accesses, peek_bind, peek_bind]
    cases hnext : start.next? with
    | none => rfl
    | some token =>
      obtain ⟨inside, next, rfl⟩ := Cursor.eq_behind_of_next? hnext
      cases hk : token.kind with
      | dot =>
        simp only [hk, advance_bind inside, peek_bind]
        cases hnext : next.next? with
        | none => rfl
        | some name =>
          obtain ⟨inside, next, rfl⟩ := Cursor.eq_behind_of_next? hnext
          by_cases hname : name.kind = .identifier
          · have hbehind := Cursor.length_le_of_behind (Cursor.length_le_of_behind hstart)
            simp only [if_pos hname, advance_bind inside]
            exact accesses_congr h budget _ hnesting hbehind
          · simp only [if_neg hname]
      | leftBracket =>
        have hnext := Cursor.length_lt_of_token hstart
        simp only [hk, advance_bind inside]
        apply h.enter_bind_congr hnext hnesting
        intro _ key us stop hkey
        subst hkey
        refine accept_bind_congr ?_ rfl
        intro right last hlast
        obtain ⟨outer, rfl, rfl⟩ := Cursor.exists_of_deeper_eq_behind hlast
        have hbehind := Cursor.length_lt_of_behind (Cursor.length_lt_of_behind hnext)
        simp only [↓reduceIte, leave_bind]
        exact accesses_congr h budget _ hnesting (Nat.le_of_lt hbehind)
      | _ => simp only [hk]

theorem access_congr (h : InnerAgree nesting bound sub sub') {start : Cursor}
    (hnesting : start.nesting = nesting) (hstart : start.rest.length ≤ bound) :
    access sub start = access sub' start := by
  apply bind_congr (primary_congr h hnesting hstart)
  intro object stop hstop
  obtain ⟨us, rfl, -⟩ := (reads_primary h.innerReads hstart).exists_of_eq_ok hstop
  simp only [get_bind]
  exact accesses_congr h _ _ hnesting (Cursor.length_le_of_behind hstart)

theorem unary_congr (h : InnerAgree nesting bound sub sub') {start : Cursor}
    (hnesting : start.nesting = nesting) (hstart : start.rest.length ≤ bound) :
    unary sub start = unary sub' start := by
  have hops : (unaryOps start.rest).2.length ≤ start.rest.length := by
    induction start.rest with
    | nil => exact Nat.le_refl _
    | cons token rest ih =>
      rw [unaryOps]
      cases unaryOp? token with
      | none => exact Nat.le_refl _
      | some op => exact Nat.le_succ_of_le ih
  have hset : access sub { start with rest := (unaryOps start.rest).2 } =
      access sub' { start with rest := (unaryOps start.rest).2 } :=
    access_congr h hnesting (Nat.le_trans hops hstart)
  have hunary : ∀ sub : ParseM Expr, unary sub start =
      (access sub >>= fun e => pure ((unaryOps start.rest).1.foldr .unary e))
        { start with rest := (unaryOps start.rest).2 } := fun _ => rfl
  rw [hunary, hunary]
  exact bind_congr hset fun _ _ _ => rfl

theorem operations_congr {level : List BinaryOp} {category : Category}
    {operand operand' : ParseM Expr}
    (hoperand : ∀ {start : Cursor}, start.nesting = nesting → start.rest.length ≤ bound →
      operand start = operand' start)
    (hreads : ∀ {start : Cursor}, start.rest.length ≤ bound →
      Reads category OfParsing operand' start) :
    ∀ (budget : List Token) (left : Expr) {start : Cursor}, start.nesting = nesting →
      start.rest.length ≤ bound →
      operations level operand budget left start =
        operations level operand' budget left start
  | [], left, start, _, _ => rfl
  | _ :: budget, left, start, hnesting, hstart => by
    rw [operations, operations, peek_bind, peek_bind]
    cases hnext : start.next?.bind (binaryOp? level) with
    | none => rfl
    | some op =>
      obtain ⟨token, inside, -, next, rfl⟩ := exists_of_bind_binaryOp?_eq_some hnext
      have hnext := Cursor.length_le_of_behind hstart
      simp only [advance_bind inside]
      refine bind_congr (hoperand hnesting hnext) ?_
      intro right stop hstop
      obtain ⟨us, rfl, -⟩ := (hreads hnext).exists_of_eq_ok hstop
      exact operations_congr hoperand hreads budget _ hnesting
        (Cursor.length_le_of_behind hnext)

theorem chain_congr {level : List BinaryOp} {category : Category}
    {operand operand' : ParseM Expr}
    (hoperand : ∀ {start : Cursor}, start.nesting = nesting → start.rest.length ≤ bound →
      operand start = operand' start)
    (hreads : ∀ {start : Cursor}, start.rest.length ≤ bound →
      Reads category OfParsing operand' start)
    {start : Cursor} (hnesting : start.nesting = nesting)
    (hstart : start.rest.length ≤ bound) :
    chain level operand start = chain level operand' start := by
  apply bind_congr (hoperand hnesting hstart)
  intro first stop hstop
  obtain ⟨us, rfl, -⟩ := (hreads hstart).exists_of_eq_ok hstop
  simp only [get_bind]
  exact operations_congr hoperand hreads _ _ hnesting (Cursor.length_le_of_behind hstart)

theorem conditionalWith_congr (h : InnerAgree nesting bound sub sub') {start : Cursor}
    (hnesting : start.nesting = nesting) (hstart : start.rest.length ≤ bound)
    (htest : binary sub BinaryOp.levels start = binary sub' BinaryOp.levels start) :
    conditionalWith sub start = conditionalWith sub' start := by
  apply bind_congr htest
  intro test stop hstop
  obtain ⟨us, rfl, -⟩ :=
    (reads_category h.innerReads .logicalOr hstart).exists_of_eq_ok hstop
  refine accept_bind_congr ?_ rfl
  intro question next hquestion
  subst hquestion
  have hbranches := Cursor.length_lt_of_token (Cursor.length_le_of_behind hstart)
  simp only [↓reduceIte]
  apply h.enter_bind_congr hbranches hnesting
  intro hmax consequent vs last hconsequent
  subst hconsequent
  refine accept_bind_congr ?_ rfl
  intro colon after hafter
  obtain ⟨behindColon, rfl, rfl⟩ := Cursor.exists_of_deeper_eq_behind hafter
  simp only [↓reduceIte]
  have hlast := Cursor.length_lt_of_behind (Cursor.length_lt_of_behind hbranches)
  have halternate : sub behindColon.deeper = sub' behindColon.deeper :=
    h.eq _ (congrArg (· + 1) hnesting) hmax hlast
  exact bind_congr halternate fun _ _ _ => rfl

theorem parser_congr (h : InnerAgree nesting bound sub sub') (category : Category)
    {start : Cursor} (hnesting : start.nesting = nesting)
    (hstart : start.rest.length ≤ bound) :
    parser sub category start = parser sub' category start := by
  induction category using Category.tighter_induction generalizing start with
  | primary => exact primary_congr h hnesting hstart
  | loosen category hne ih =>
    cases category with
    | primary => exact absurd rfl hne
    | access => exact access_congr h hnesting hstart
    | unary => exact unary_congr h hnesting hstart
    | conditional => exact conditionalWith_congr h hnesting hstart (ih hnesting hstart)
    | _ => exact chain_congr ih (reads_category h.innerReads _) hnesting hstart

end Agreement

theorem accesses_of_rest_eq_nil {sub : ParseM Expr} {start : Cursor} (h : start.rest = [])
    (budget : List Token) (object : Expr) :
    accesses sub budget object start = .ok (object, start) := by
  cases budget with
  | nil => rfl
  | cons _ budget =>
    rw [accesses, peek_bind, Cursor.next?_eq, h]
    rfl

theorem operations_of_rest_eq_nil {level : List BinaryOp} {operand : ParseM Expr}
    {start : Cursor} (h : start.rest = []) (budget : List Token) (left : Expr) :
    operations level operand budget left start = .ok (left, start) := by
  cases budget with
  | nil => rfl
  | cons _ budget =>
    rw [operations, peek_bind, Cursor.next?_eq, h]
    rfl

/-- Two budgets for the rounds of accesses that are both as long as the tokens to come. -/
theorem accesses_budget {sub : ParseM Expr}
    (hreads : ∀ inner : Cursor, Reads .conditional OfParsing sub inner) :
    ∀ (budget budget' : List Token) (object : Expr) {start : Cursor},
      start.rest.length ≤ budget.length → start.rest.length ≤ budget'.length →
      accesses sub budget object start = accesses sub budget' object start
  | [], budget', object, start, h, _ => by
    have hrest : start.rest = [] := List.length_eq_zero_iff.1 (Nat.le_zero.1 h)
    rw [accesses_of_rest_eq_nil hrest, accesses_of_rest_eq_nil hrest]
  | budget, [], object, start, _, h => by
    have hrest : start.rest = [] := List.length_eq_zero_iff.1 (Nat.le_zero.1 h)
    rw [accesses_of_rest_eq_nil hrest, accesses_of_rest_eq_nil hrest]
  | _ :: budget, _ :: budget', object, start, h, h' => by
    rw [accesses, accesses, peek_bind, peek_bind]
    cases hnext : start.next? with
    | none => rfl
    | some token =>
      obtain ⟨inside, next, rfl⟩ := Cursor.eq_behind_of_next? hnext
      have hnext := Nat.le_of_lt_succ (Cursor.length_lt_of_token h)
      have hnext' := Nat.le_of_lt_succ (Cursor.length_lt_of_token h')
      cases hk : token.kind with
      | dot =>
        simp only [hk, advance_bind inside, peek_bind]
        cases hname : next.next? with
        | none => rfl
        | some name =>
          obtain ⟨inside, next, rfl⟩ := Cursor.eq_behind_of_next? hname
          have hbehind := Cursor.length_le_of_behind hnext
          have hbehind' := Cursor.length_le_of_behind hnext'
          by_cases hname : name.kind = .identifier
          · simp only [if_pos hname, advance_bind inside]
            exact accesses_budget hreads budget budget' _ hbehind hbehind'
          · simp only [if_neg hname]
      | leftBracket =>
        have hagree : InnerAgree next.nesting (next.rest.length + 1) sub sub :=
          ⟨fun _ _ _ _ => rfl, hreads⟩
        simp only [hk, advance_bind inside]
        apply hagree.enter_bind_congr (Nat.lt_succ_self _) rfl
        intro _ key us stop hkey
        subst hkey
        refine accept_bind_congr ?_ rfl
        intro right last hlast
        obtain ⟨outer, rfl, rfl⟩ := Cursor.exists_of_deeper_eq_behind hlast
        have hbehind := Cursor.length_le_of_behind (Cursor.length_le_of_behind hnext)
        have hbehind' := Cursor.length_le_of_behind (Cursor.length_le_of_behind hnext')
        simp only [↓reduceIte, leave_bind]
        exact accesses_budget hreads budget budget' _ hbehind hbehind'
      | _ => simp only [hk]

/-- The same for the rounds of operations. -/
theorem operations_budget {level : List BinaryOp} {category : Category}
    {operand : ParseM Expr}
    (hreads : ∀ start : Cursor, Reads category OfParsing operand start) :
    ∀ (budget budget' : List Token) (left : Expr) {start : Cursor},
      start.rest.length ≤ budget.length → start.rest.length ≤ budget'.length →
      operations level operand budget left start =
        operations level operand budget' left start
  | [], budget', left, start, h, _ => by
    have hrest : start.rest = [] := List.length_eq_zero_iff.1 (Nat.le_zero.1 h)
    rw [operations_of_rest_eq_nil hrest, operations_of_rest_eq_nil hrest]
  | budget, [], left, start, _, h => by
    have hrest : start.rest = [] := List.length_eq_zero_iff.1 (Nat.le_zero.1 h)
    rw [operations_of_rest_eq_nil hrest, operations_of_rest_eq_nil hrest]
  | _ :: budget, _ :: budget', left, start, h, h' => by
    rw [operations, operations, peek_bind, peek_bind]
    cases hnext : start.next?.bind (binaryOp? level) with
    | none => rfl
    | some op =>
      obtain ⟨token, inside, -, next, rfl⟩ := exists_of_bind_binaryOp?_eq_some hnext
      have hnext := Nat.le_of_lt_succ (Cursor.length_lt_of_token h)
      have hnext' := Nat.le_of_lt_succ (Cursor.length_lt_of_token h')
      simp only [advance_bind inside]
      apply bind_congr rfl
      intro right stop hstop
      obtain ⟨us, rfl, -⟩ := (hreads next).exists_of_eq_ok hstop
      exact operations_budget hreads budget budget' _ (Cursor.length_le_of_behind hnext)
        (Cursor.length_le_of_behind hnext')

/-- More activations than tokens to come, or than levels to open. -/
def Enough (activations : Nat) (start : Cursor) : Prop :=
  start.rest.length < activations ∨ start.room < activations

theorem conditional_congr {activations activations' : Nat} {start : Cursor}
    (h : Enough activations start) (h' : Enough activations' start) :
    conditional activations start = conditional activations' start := by
  induction activations generalizing activations' start with
  | zero => simp [Enough] at h
  | succ activations ih =>
    cases activations' with
    | zero => simp [Enough] at h'
    | succ activations' =>
      have hagree : InnerAgree start.nesting start.rest.length (conditional activations)
          (conditional activations') := by
        constructor
        · intro inner hnesting hmax hlength
          have hroom : inner.room + 1 = start.room := by
            simp only [Cursor.room]
            omega
          simp only [Enough] at h h' ih
          exact ih (by omega) (by omega)
        · intro inner
          exact reads_conditional activations' inner
      exact parser_congr hagree .conditional rfl (Nat.le_refl _)

end Parse

theorem parseWithin_congr {activations activations' : Nat} {tokens : List Token}
    (h : Parse.Enough activations (.ofTokens tokens))
    (h' : Parse.Enough activations' (.ofTokens tokens)) :
    parseWithin activations tokens = parseWithin activations' tokens := by
  simp only [parseWithin, Parse.conditional_congr h h']

/-- One activation more than there are levels of nesting is enough for any tokens. -/
theorem parse_eq_parseWithin (tokens : List Token) :
    parse tokens = parseWithin (maxNesting + 1) tokens := by
  refine parseWithin_congr (.inl ?_) (.inr ?_)
  · exact Nat.lt_succ_self _
  · exact Nat.lt_succ_self maxNesting

end GuardedExpr
