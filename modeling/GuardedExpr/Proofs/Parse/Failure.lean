import GuardedExpr.Proofs.Parse.Beginnings
import GuardedExpr.Proofs.Parse.Lookahead
import GuardedExpr.Proofs.Parse.Recognition
import GuardedExpr.Proofs.Parse.Rounds

/-!
# Where a parser stops

A parser that does not read a phrase of its category, and has room enough, stops behind
tokens that begin one and blames the next one. Since it looks no further than that, it
would fail in the same way whatever came behind it. `SettledAs` says both, and as in
the proof that what is read is a phrase, it is proved parser by parser for an inner
parser of which it is assumed.

The two loops are taken without the bound on their rounds, which is the number of tokens to
come and so depends on tokens that they never look at.
-/

namespace GuardedExpr

theorem Cursor.room_eq_of_nesting {start stop : Cursor} (h : stop.nesting = start.nesting) :
    stop.room = start.room := by
  rw [room, room, h]

namespace Parse

/-- A parser of `category` has read `us` and stops at a token that cannot come next. -/
structure Stuck (category : Category) (room : Nat) (us : List Token) (stop : Cursor)
    (fault : Fault) :
    Prop where
  begins : Begins category room us
  blames : Blames us stop.next? stop.position fault

theorem Stuck.here {category : Category} {room : Nat} {us : List Token} {stop : Cursor}
    {cause : ParseCause} (begins : Begins category room us) (own : cause.opener? = none)
    (names : ∀ found ∈ cause.found?, found = stop.next?) :
    Stuck category room us stop (.parse cause stop.position) :=
  ⟨begins, .here own names⟩

/-- The run of a parser from a place reads a phrase of `category`, or stops at a token
that cannot come next. -/
def SettledAs (category : Category) (p : ParseM Expr) (start : Cursor) : Prop :=
  Settled (fun e us stop => stop.nesting = start.nesting ∧ Derives category start.room us e)
    (Stuck category start.room) p start

theorem SettledAs.loosen {category : Category} {p : ParseM Expr} {start : Cursor}
    (hne : category ≠ .primary) (h : SettledAs category.tighter p start) :
    SettledAs category p start := by
  refine Settled.mono h ?_ ?_
  · rintro e us stop ⟨nesting, derives⟩
    exact ⟨nesting, .tighter hne derives⟩
  · rintro us stop fault ⟨begins, blames⟩
    exact ⟨.loosen hne begins, blames⟩

/-! ## Loops -/

/-- The run of a parser completes the tokens `us`, which are read already, to a phrase of
`category`, or stops at a token that cannot come next. -/
def SettledBehind (category : Category) (us : List Token) (p : ParseM Expr)
    (start : Cursor) : Prop :=
  Settled (fun e vs stop => stop.nesting = start.nesting ∧
    Derives category start.room (us ++ vs) e)
    (fun vs => Stuck category start.room (us ++ vs)) p start

/-- The same of a loop behind the tokens that one round from `start` may read. -/
def SettledFurther (category : Category) (us : List Token) (loop : Expr → ParseM Expr)
    (start : Cursor) :
    Prop :=
  ∀ vs e stop, vs ≠ [] → start.rest = vs ++ stop.rest → stop.nesting = start.nesting →
    Derives category start.room (us ++ vs) e →
    Settled (fun e ws last => last.nesting = start.nesting ∧
      Derives category start.room (us ++ (vs ++ ws)) e)
      (fun ws => Stuck category start.room (us ++ (vs ++ ws))) (loop e) stop

section Loops

variable {category : Category} {loop : Expr → ParseM Expr} {start : Cursor}

/-- A loop is settled if each of its rounds is when the rounds behind it are. -/
theorem settledBehind_of_rounds
    (hround : ∀ us e start, Derives category start.room us e →
      SettledFurther category us loop start → SettledBehind category us (loop e) start)
    (bound : Nat) :
    ∀ {us : List Token} {e : Expr} {start : Cursor}, start.rest.length < bound →
      Derives category start.room us e → SettledBehind category us (loop e) start := by
  induction bound with
  | zero => exact fun few => absurd few (Nat.not_lt_zero _)
  | succ bound ih =>
    intro us e start few derives
    refine hround us e start derives fun vs e stop read split nesting longer => ?_
    have fewer : stop.rest.length < bound := by
      have taken := List.length_pos_iff.2 read
      rw [split, List.length_append] at few
      omega
    have room := Cursor.room_eq_of_nesting nesting
    have further := ih fewer (room ▸ longer)
    rw [SettledBehind, nesting, room] at further
    simpa only [List.append_assoc] using further

/-- A parser for the next tighter category and a loop behind it. -/
theorem settledAs_of_rounds (hne : category ≠ .primary) {p : ParseM Expr}
    (hfirst : SettledAs category.tighter p start)
    (hround : ∀ us e start, Derives category start.room us e →
      SettledFurther category us loop start → SettledBehind category us (loop e) start) :
    SettledAs category (p >>= loop) start := by
  refine Settled.bind hfirst ?_ ?_
  · rintro us stop fault ⟨begins, blames⟩
    exact ⟨.loosen hne begins, blames⟩
  · rintro e us stop - ⟨nesting, derives⟩
    have room := Cursor.room_eq_of_nesting nesting
    have further :=
      settledBehind_of_rounds hround _ (Nat.lt_succ_self _) (.tighter hne (room ▸ derives))
    rwa [SettledBehind, nesting, room] at further

end Loops

/-! ## Parsers -/

section Parsers

variable {sub : ParseM Expr} {start : Cursor}

/-- A conditional between an opening token and the one that closes it. -/
theorem settled_enclosed {α : Type} {good : α → List Token → Cursor → Prop}
    {bad : List Token → Cursor → Fault → Prop}
    (hsub : ∀ inner, SettledAs .conditional sub inner) {closing : TokenKind} {place : Nat}
    {cause : Option Token → ParseCause} {f : Expr → ParseM α}
    (stuck : start.room = start.deeper.room + 1 → ∀ us stop fault,
      Stuck .conditional start.deeper.room us stop fault → bad us stop fault)
    (unmatched : start.room = start.deeper.room + 1 → ∀ e us stop,
      Derives .conditional start.deeper.room us e →
      bad us stop (.parse (cause stop.next?) place))
    (closed : start.room = start.deeper.room + 1 → ∀ e us right stop,
      Derives .conditional start.deeper.room us e → right.kind = closing →
      start.rest = us ++ right :: stop.rest → stop.nesting = start.nesting →
      Settled (fun a vs => good a (us ++ right :: vs)) (fun vs => bad (us ++ right :: vs))
        (f e) stop) :
    Settled good bad (do
      enter
      let inner ← sub
      if ← accept (·.kind == closing) then
        leave
        f inner
      else failAt place (cause (← peek))) start := by
  refine Settled.enter_bind fun space => ?_
  have room : start.room = start.deeper.room + 1 := Cursor.room_eq_succ space
  refine Settled.bind (hsub _) (stuck room) ?_
  rintro e us stop split ⟨nesting, derives⟩
  refine Settled.accept_bind ?_ ?_
  · rintro right stop rfl closes
    simp only [↓reduceIte]
    refine Settled.leave_bind
      (closed room e us right _ derives (by simpa using closes) split ?_)
    exact congrArg (· - 1) nesting
  · refine Settled.peek_bind (Settled.failAt ?_)
    rw [List.append_nil]
    exact unmatched room e us stop derives

theorem settledAs_primary (hsub : ∀ inner, SettledAs .conditional sub inner)
    (start : Cursor) :
    SettledAs .primary (primary sub) start := by
  refine Settled.peek_bind ?_
  cases next : start.next? with
  | none =>
    exact Settled.fail (.here (begins_nil _ _) rfl (by simp [ParseCause.found?, next]))
  | some token =>
    obtain ⟨inside, stop, rfl⟩ := Cursor.eq_behind_of_next? next
    cases kind : token.kind with
    | number =>
      simp only [kind]
      cases read : readDouble? token.text.toList with
      | some x =>
        refine Settled.advance_bind inside ?_
        simp only [number, read]
        exact Settled.pure ⟨rfl, .number kind read⟩
      | none =>
        -- The numeral is read before it is refused, but it is the one that cannot come next.
        have failed : ∀ place : Cursor, (advance >>= fun _ => number token) place =
            .error (.parse (.invalidNumber token.text) token.position) := by
          intro place
          change number token _ = _
          simp [number, read]
        refine Settled.of_error (failed _) ?_ fun _ _ _ => ⟨_, failed _⟩
        rw [← Cursor.position_of_next? next]
        exact .here (begins_nil _ _) rfl (by simp [ParseCause.found?])
    | string =>
      simp only [kind]
      exact Settled.advance_bind inside (Settled.pure ⟨rfl, .string kind⟩)
    | boolean =>
      simp only [kind]
      exact Settled.advance_bind inside (Settled.pure ⟨rfl, .boolean kind⟩)
    | null =>
      simp only [kind]
      exact Settled.advance_bind inside (Settled.pure ⟨rfl, .null kind⟩)
    | identifier =>
      simp only [kind]
      exact Settled.advance_bind inside (Settled.pure ⟨rfl, .identifier kind⟩)
    | leftParen =>
      simp only [kind]
      refine Settled.advance_bind inside (settled_enclosed hsub ?_ ?_ ?_)
      · rintro room us stop fault ⟨begins, blames⟩
        exact ⟨room ▸ begins.inner kind, blames.behind [token]⟩
      · intro room e us stop derives
        refine ⟨room ▸ derives.begins.inner kind, .opener (congrArg some kind.symm) ?_ ?_⟩
        · exact head?_unclosed_cons (.inl kind) derives
        · simp [ParseCause.found?]
      · intro room e us right stop derives closes _ nesting
        exact Settled.pure ⟨nesting, room ▸ .parens kind closes derives⟩
    | _ =>
      simp only [kind]
      exact Settled.fail (.here (begins_nil _ _) rfl (by simp [ParseCause.found?, next]))

theorem settledBehind_accessing (hreads : ∀ inner, Reads .conditional OfParsing sub inner)
    (hsub : ∀ inner, SettledAs .conditional sub inner) {us : List Token} {object : Expr}
    (derives : Derives .access start.room us object)
    (further : SettledFurther .access us (accessing sub) start) :
    SettledBehind .access us (accessing sub object) start := by
  have done : SettledBehind .access us (pure object) start :=
    Settled.pure ⟨rfl, by rwa [List.append_nil]⟩
  rw [accessing_eq hreads]
  refine Settled.peek_bind ?_
  cases next : start.next? with
  | none => exact done
  | some token =>
    obtain ⟨inside, stop, rfl⟩ := Cursor.eq_behind_of_next? next
    rw [Cursor.room_behind] at derives
    cases kind : token.kind with
    | dot =>
      simp only [kind]
      refine Settled.advance_bind inside (Settled.peek_bind ?_)
      have property : Begins .access stop.room (us ++ [token]) := .property kind derives
      cases behind : stop.next? with
      | none => exact Settled.fail (.here property rfl (by simp [ParseCause.found?, behind]))
      | some name =>
        obtain ⟨inside, stop, rfl⟩ := Cursor.eq_behind_of_next? behind
        by_cases named : name.kind = .identifier
        · simp only [named, ↓reduceIte]
          refine Settled.advance_bind inside ?_
          exact further [token, name] _ stop (by simp) rfl rfl (.member kind named derives)
        · simp only [named, ↓reduceIte]
          exact Settled.fail (.here property rfl (by simp [ParseCause.found?, behind]))
    | leftBracket =>
      simp only [kind]
      refine Settled.advance_bind inside (settled_enclosed hsub ?_ ?_ ?_)
      · rintro room vs last fault ⟨begins, blames⟩
        rw [Cursor.room_behind, room]
        rw [room] at derives
        exact ⟨begins.key kind derives, (blames.behind [token]).behind us⟩
      · intro room key vs last index
        rw [Cursor.room_behind, room]
        rw [room] at derives
        refine ⟨index.begins.key kind derives, .opener (congrArg some kind.symm) ?_ ?_⟩
        · exact head?_unclosed_append (head?_unclosed_cons (.inr kind) index)
        · simp [ParseCause.found?]
      · intro room key vs right last index closes split nesting
        have longer : Derives .access stop.room (us ++ (token :: (vs ++ [right])))
            (.index object key) := by
          rw [room] at derives ⊢
          exact .index kind closes derives index
        have read :
            (stop.behind [token]).rest = (token :: (vs ++ [right])) ++ last.rest := by
          simpa using split
        simpa using further _ _ last (by simp) read nesting longer
    | _ =>
      simp only [kind]
      exact done

theorem settledAs_access (hreads : ∀ inner, Reads .conditional OfParsing sub inner)
    (hsub : ∀ inner, SettledAs .conditional sub inner) (start : Cursor) :
    SettledAs .access (access sub) start := by
  rw [access_eq]
  exact settledAs_of_rounds (by simp) (settledAs_primary hsub start) fun _ _ _ =>
    settledBehind_accessing hreads hsub

theorem settledAs_unary (haccess : ∀ start, SettledAs .access (access sub) start)
    (start : Cursor) :
    SettledAs .unary (unary sub) start := by
  have hne : Category.unary ≠ .primary := by simp
  have plain : ∀ start : Cursor, (∀ token ∈ start.next?, unaryOp? token = none) →
      SettledAs .unary (unary sub) start := by
    intro start none
    have loose := SettledAs.loosen hne (haccess start)
    refine Settled.congr (fun rest endPosition next => unary_of_none ?_) loose
    rwa [Cursor.next?_instead, next]
  generalize hrest : start.rest = rest
  induction rest generalizing start with
  | nil => exact plain start (by simp [Cursor.next?_eq, hrest])
  | cons token rest ih =>
    cases hop : unaryOp? token with
    | none =>
      refine plain start fun found next => ?_
      obtain rfl : token = found := by
        simpa [Cursor.next, hrest] using (Cursor.next?_eq_some_iff.1 next).2
      exact hop
    | some op =>
      have symbol := unaryOp?_eq_some_iff.1 hop
      obtain ⟨stop, rfl⟩ := Cursor.eq_behind_of_rest hrest
      refine Settled.of_token (fun _ _ => unary_behind hop _) ?_
      refine Settled.bind (ih stop (List.cons.inj hrest).2) ?_ ?_
      · rintro us stop fault ⟨begins, blames⟩
        exact ⟨begins.unary symbol, blames.behind [token]⟩
      · rintro e us stop - ⟨nesting, derives⟩
        refine Settled.pure ⟨nesting, ?_⟩
        rw [List.append_nil]
        cases op with
        | not => exact .not symbol derives
        | neg => exact .neg symbol derives

theorem settledBehind_operating {category : Category} {operand : ParseM Expr}
    (hreads : ∀ start, Reads category.tighter OfParsing operand start)
    (hoperand : ∀ start, SettledAs category.tighter operand start) {us : List Token}
    {left : Expr} (derives : Derives category start.room us left)
    (further : SettledFurther category us (operating category.level operand) start) :
    SettledBehind category us (operating category.level operand left) start := by
  rw [operating_eq hreads]
  refine Settled.peek_bind ?_
  cases next : start.next?.bind (binaryOp? category.level) with
  | none => exact Settled.pure ⟨rfl, by rwa [List.append_nil]⟩
  | some op =>
    obtain ⟨token, inside, hop, stop, rfl⟩ := exists_of_bind_binaryOp?_eq_some next
    obtain ⟨symbol, level⟩ := binaryOp?_eq_some_iff.1 hop
    refine Settled.advance_bind inside (Settled.bind (hoperand _) ?_ ?_)
    · rintro vs last fault ⟨begins, blames⟩
      exact ⟨begins.operand level symbol derives, (blames.behind [token]).behind us⟩
    · rintro right vs last split ⟨nesting, operand⟩
      have longer :=
        Derives.operation (Category.mem_level_iff.1 level) symbol derives operand
      exact further (token :: vs) _ last (by simp)
        (congrArg (token :: ·) split) nesting longer

theorem settledAs_chain {category : Category} (hne : category ≠ .primary)
    {operand : ParseM Expr}
    (hreads : ∀ start, Reads category.tighter OfParsing operand start)
    (hoperand : ∀ start, SettledAs category.tighter operand start) (start : Cursor) :
    SettledAs category (chain category.level operand) start := by
  rw [chain_eq]
  exact settledAs_of_rounds hne (hoperand start) fun _ _ _ =>
    settledBehind_operating hreads hoperand

theorem settledAs_conditionalWith (hsub : ∀ inner, SettledAs .conditional sub inner)
    {start : Cursor} (htest : SettledAs .logicalOr (binary sub BinaryOp.levels) start) :
    SettledAs .conditional (conditionalWith sub) start := by
  have hne : Category.conditional ≠ .primary := by simp
  refine Settled.bind htest ?_ ?_
  · rintro us stop fault ⟨begins, blames⟩
    exact ⟨.loosen hne begins, blames⟩
  rintro test us stop - ⟨nesting, derives⟩
  have same := Cursor.room_eq_of_nesting nesting
  refine Settled.accept_bind ?_ (Settled.pure ⟨nesting, ?_⟩)
  · rintro question stop rfl symbol
    simp only [↓reduceIte]
    refine Settled.enter_bind fun space => ?_
    have deeper : stop.room = stop.deeper.room + 1 := Cursor.room_eq_succ space
    rw [← same, Cursor.room_behind, deeper] at derives ⊢
    refine Settled.bind (hsub _) ?_ ?_
    · rintro vs last fault ⟨begins, blames⟩
      exact ⟨.consequent symbol derives begins, (blames.behind [question]).behind us⟩
    rintro consequent vs last - ⟨nesting', branch⟩
    refine Settled.accept_bind ?_ ?_
    · rintro colon last rfl kind
      have kind : colon.kind = .colon := by simpa using kind
      have same' : last.room = stop.deeper.room := Cursor.room_eq_of_nesting nesting'
      simp only [↓reduceIte]
      refine Settled.bind (hsub _) ?_ ?_
      · rintro ws final fault ⟨begins, blames⟩
        refine ⟨.alternate symbol kind derives branch (same' ▸ begins), ?_⟩
        exact (((blames.behind [colon]).behind vs).behind [question]).behind us
      · rintro alternate ws final - ⟨nesting'', branch'⟩
        refine Settled.leave_bind (Settled.pure ⟨?_, ?_⟩)
        · exact (congrArg (· - 1) (nesting''.trans nesting')).trans nesting
        · rw [List.append_nil]
          exact .choice symbol kind derives branch (same' ▸ branch')
    · refine Settled.peek_bind (Settled.fail (.here ?_ rfl (by simp [ParseCause.found?])))
      rw [List.append_nil]
      exact .consequent symbol derives branch.begins
  · rw [List.append_nil]
    exact .tighter hne derives

theorem settledAs_category (hreads : ∀ inner, Reads .conditional OfParsing sub inner)
    (hsub : ∀ inner, SettledAs .conditional sub inner) (category : Category)
    (start : Cursor) :
    SettledAs category (parser sub category) start := by
  have hinner : ∀ start : Cursor, InnerReads OfParsing start.rest.length sub := fun _ =>
    ⟨fun cause position _ => ⟨cause, position, rfl⟩, fun inner _ => hreads inner⟩
  induction category using Category.tighter_induction generalizing start with
  | primary => exact settledAs_primary hsub start
  | loosen category hne ih =>
    cases category with
    | primary => exact absurd rfl hne
    | access => exact settledAs_access hreads hsub start
    | unary => exact settledAs_unary ih start
    | conditional => exact settledAs_conditionalWith hsub (ih start)
    | _ =>
      exact settledAs_chain hne
        (fun start => reads_category (hinner start) _ (Nat.le_refl _)) ih start

end Parsers

/-- With any number of activations, a parser fails for want of room or at a token
that cannot come next. -/
theorem settledAs_conditional (activations : Nat) (start : Cursor) :
    SettledAs .conditional (conditional activations) start := by
  induction activations generalizing start with
  | zero => exact Settled.of_outOfRoom rfl ⟨_, .inr rfl⟩
  | succ activations ih =>
    exact settledAs_category (reads_conditional activations) ih .conditional start

end Parse

end GuardedExpr
