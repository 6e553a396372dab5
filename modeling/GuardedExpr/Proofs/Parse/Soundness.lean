import GuardedExpr.Proofs.Parse.Grammar
import GuardedExpr.Proofs.Parse.Outcome

/-!
# What the parser reads is a phrase

Every parser of `Parse` reads a phrase of its category and gives the expression that the
phrase stands for, with as many levels of nesting open behind it as in front. This is
proved parser by parser for an inner parser `sub` of which it is assumed, and then for
`conditional` by induction on the number of activations.

The faults are followed along: `bad` is any property that all faults of the parser have,
except perhaps that of a missing activation. So one pass gives both that every fault is a
fault of parsing, and that with enough activations none is missing.
-/

namespace GuardedExpr

theorem BinaryOp.ofSymbol?_eq_some_iff {symbol : String} {op : BinaryOp} :
    BinaryOp.ofSymbol? symbol = some op ↔ symbol = op.symbol := by
  constructor
  · intro h
    rw [BinaryOp.ofSymbol?] at h
    have hsymbol := List.find?_some h
    exact (beq_iff_eq.1 hsymbol).symm
  · rintro rfl
    exact BinaryOp.ofSymbol?_symbol op

namespace Parse

theorem binaryOp?_eq_some_iff {level : List BinaryOp} {token : Token} {op : BinaryOp} :
    binaryOp? level token = some op ↔ token.isOperator op.symbol = true ∧ op ∈ level := by
  by_cases hk : token.kind = .operator
  · simp [binaryOp?, Token.isOperator, hk, BinaryOp.ofSymbol?_eq_some_iff]
  · simp [binaryOp?, Token.isOperator, hk]

theorem unaryOp?_eq_some_iff {token : Token} {op : UnaryOp} :
    unaryOp? token = some op ↔ token.isOperator op.symbol = true := by
  have hne : ¬ (token.isOperator "!" = true ∧ token.isOperator "-" = true) := by
    rintro ⟨hnot, hneg⟩
    simp only [Token.isOperator, Bool.and_eq_true, beq_iff_eq] at hnot hneg
    exact absurd (hnot.2.symm.trans hneg.2) (by decide)
  cases op <;> by_cases hnot : token.isOperator "!" = true <;>
    by_cases hneg : token.isOperator "-" = true <;> simp_all [unaryOp?, UnaryOp.symbol]

theorem exists_of_bind_binaryOp?_eq_some {level : List BinaryOp} {start : Cursor}
    {op : BinaryOp} (h : start.next?.bind (binaryOp? level) = some op) :
    ∃ token : Token, token.kind ≠ .endOfInput ∧ binaryOp? level token = some op ∧
      ∃ stop : Cursor, start = stop.behind [token] := by
  obtain ⟨token, next, hop⟩ := Option.bind_eq_some_iff.1 h
  obtain ⟨inside, stop, hstart⟩ := Cursor.eq_behind_of_next? next
  exact ⟨token, inside, hop, stop, hstart⟩

/-- The parser for the phrases of a category, where `sub` reads inner conditionals. -/
def parser (sub : ParseM Expr) : Category → ParseM Expr
  | .conditional => conditionalWith sub
  | .logicalOr => binary sub BinaryOp.levels
  | .logicalAnd => binary sub (BinaryOp.levels.drop 1)
  | .equality => binary sub (BinaryOp.levels.drop 2)
  | .relational => binary sub (BinaryOp.levels.drop 3)
  | .additive => binary sub (BinaryOp.levels.drop 4)
  | .multiplicative => binary sub (BinaryOp.levels.drop 5)
  | .unary => unary sub
  | .access => access sub
  | .primary => primary sub

/-- From `start`, the parser reads a phrase of `category`, or fails with a `bad` fault. -/
def Reads (category : Category) (bad : Fault → Prop) (p : ParseM Expr) (start : Cursor) :
    Prop :=
  Outcome (fun e stop => ∃ us, start = stop.behind us ∧ Derives category start.room us e) bad
    (p start)

/-- A fault of parsing, as opposed to one of another stage. -/
def OfParsing (fault : Fault) : Prop :=
  ∃ cause position, fault = .parse cause position

/-- What is assumed of the parser for inner conditionals, in front of
fewer than `bound` tokens. -/
structure InnerReads (bad : Fault → Prop) (bound : Nat) (sub : ParseM Expr) : Prop where
  bad_of_ne : ∀ cause position, cause ≠ .tooManyActivations → bad (.parse cause position)
  reads : ∀ inner : Cursor, inner.rest.length < bound → Reads .conditional bad sub inner

/-- A parser that reads a phrase of the next tighter category reads one of this category. -/
theorem Reads.of_tighter {category : Category} {bad : Fault → Prop} {p : ParseM Expr}
    {start : Cursor} (hne : category ≠ .primary) (h : Reads category.tighter bad p start) :
    Reads category bad p start := by
  apply Outcome.mono h
  intro e stop hread
  rcases hread with ⟨us, hstart, hus⟩
  exact ⟨us, hstart, .tighter hne hus⟩

section Categories

variable {bad : Fault → Prop} {bound : Nat} {sub : ParseM Expr}

/-- Reading the inside of parentheses or brackets: a level is opened, a conditional is read
in it, and what comes behind takes place with the level still open. -/
theorem InnerReads.enter_bind {β : Type} (h : InnerReads bad bound sub) {start : Cursor}
    (hstart : start.rest.length < bound) {good : β → Cursor → Prop} {f : Expr → ParseM β}
    (hf : ∀ (e : Expr) (us : List Token) (stop : Cursor), start = stop.behind us →
      start.room = stop.deeper.room + 1 →
      Derives .conditional stop.deeper.room us e → Outcome good bad (f e stop.deeper)) :
    Outcome good bad ((enter >>= fun _ => sub >>= f) start) := by
  by_cases hroom : start.nesting < maxNesting
  · rw [enter_bind_of_lt hroom]
    apply Outcome.bind (h.reads start.deeper hstart)
    intro e stop hread
    rcases hread with ⟨us, hdeeper, hus⟩
    obtain ⟨outer, rfl, rfl⟩ := Cursor.exists_of_deeper_eq_behind hdeeper
    exact hf e us outer rfl (Cursor.room_eq_succ hroom) hus
  · rw [enter_bind_of_le (Nat.not_lt.1 hroom)]
    exact h.bad_of_ne _ _ (by simp)

theorem reads_primary (h : InnerReads bad bound sub) {start : Cursor}
    (hstart : start.rest.length ≤ bound) : Reads .primary bad (primary sub) start := by
  rw [Reads, primary, peek_bind]
  cases hnext : start.next? with
  | none => exact h.bad_of_ne _ _ (by simp)
  | some token =>
    obtain ⟨inside, stop, rfl⟩ := Cursor.eq_behind_of_next? hnext
    cases hk : token.kind with
    | number =>
      simp only [hk, advance_bind inside, number]
      cases hx : readDouble? token.text.toList with
      | none => exact h.bad_of_ne _ _ (by simp)
      | some x => exact ⟨[token], rfl, .number hk hx⟩
    | string =>
      simp only [hk, advance_bind inside]
      exact ⟨[token], rfl, .string hk⟩
    | boolean =>
      simp only [hk, advance_bind inside]
      exact ⟨[token], rfl, .boolean hk⟩
    | null =>
      simp only [hk, advance_bind inside]
      exact ⟨[token], rfl, .null hk⟩
    | identifier =>
      simp only [hk, advance_bind inside]
      exact ⟨[token], rfl, .identifier hk⟩
    | leftParen =>
      simp only [hk, advance_bind inside]
      apply h.enter_bind (Cursor.length_lt_of_token hstart)
      intro e us stop hnext hroom hus
      subst hnext
      refine Outcome.accept_bind ?_ (h.bad_of_ne _ _ (by simp))
      intro right last hlast hright
      obtain ⟨outer, rfl, rfl⟩ := Cursor.exists_of_deeper_eq_behind hlast
      simp only [↓reduceIte, leave_bind]
      refine ⟨token :: (us ++ [right]), by simp, ?_⟩
      simp only [Cursor.room_behind] at hroom ⊢
      exact hroom ▸ .parens hk (by simpa using hright) hus
    | _ =>
      simp only [hk]
      exact h.bad_of_ne _ _ (by simp)

/-- The accesses behind a phrase make a longer phrase of it. -/
theorem reads_accesses (h : InnerReads bad bound sub) {room : Nat} :
    ∀ (budget : List Token) {us : List Token} {object : Expr} {start : Cursor},
      start.rest.length < bound → start.room = room → Derives .access room us object →
      Outcome (fun e stop => ∃ vs, start = stop.behind vs ∧
        Derives .access room (us ++ vs) e) bad
        (accesses sub budget object start)
  | [], us, object, start, _, _, hus => ⟨[], rfl, by simpa using hus⟩
  | _ :: budget, us, object, start, hstart, hroom, hus => by
    rw [accesses, peek_bind]
    cases hnext : start.next? with
    | none => exact ⟨[], rfl, by simpa using hus⟩
    | some token =>
      obtain ⟨inside, next, rfl⟩ := Cursor.eq_behind_of_next? hnext
      cases hk : token.kind with
      | dot =>
        simp only [hk, advance_bind inside, peek_bind]
        cases hnext : next.next? with
        | none => exact h.bad_of_ne _ _ (by simp)
        | some name =>
          obtain ⟨inside, next, rfl⟩ := Cursor.eq_behind_of_next? hnext
          by_cases hname : name.kind = .identifier
          · simp only [if_pos hname, advance_bind inside]
            have hmember := Derives.member hk hname hus
            have hnext := Cursor.length_lt_of_behind (Cursor.length_lt_of_behind hstart)
            apply Outcome.mono (reads_accesses h budget hnext hroom hmember)
            intro e stop hread
            rcases hread with ⟨vs, rfl, hvs⟩
            exact ⟨token :: name :: vs, by simp, by simpa using hvs⟩
          · simp only [if_neg hname]
            exact h.bad_of_ne _ _ (by simp)
      | leftBracket =>
        have hnext := Cursor.length_lt_of_behind hstart
        simp only [hk, advance_bind inside]
        apply h.enter_bind hnext
        intro key vs stop hkey hdeeper hvs
        subst hkey
        refine Outcome.accept_bind ?_ (h.bad_of_ne _ _ (by simp))
        intro right last hlast hright
        obtain ⟨outer, rfl, rfl⟩ := Cursor.exists_of_deeper_eq_behind hlast
        simp only [↓reduceIte, leave_bind]
        simp only [Cursor.room_behind] at hroom hdeeper hvs
        rw [hroom] at hdeeper
        rw [hdeeper] at hus
        have hindex := Derives.index hk (by simpa using hright) hus hvs
        rw [← hdeeper] at hindex
        have hbehind := Cursor.length_lt_of_behind (Cursor.length_lt_of_behind hnext)
        apply Outcome.mono (reads_accesses h budget hbehind hroom hindex)
        intro e stop hread
        rcases hread with ⟨ws, rfl, hws⟩
        exact ⟨token :: (vs ++ right :: ws), by simp, by simpa using hws⟩
      | _ =>
        simp only [hk]
        exact ⟨[], rfl, by simpa using hus⟩

theorem reads_access (h : InnerReads bad bound sub) {start : Cursor}
    (hstart : start.rest.length ≤ bound) : Reads .access bad (access sub) start := by
  apply Outcome.bind (reads_primary h hstart)
  intro object stop hread
  rcases hread with ⟨us, rfl, hus⟩
  have hlength : stop.rest.length < bound := by
    obtain ⟨token, us, rfl⟩ := List.exists_cons_of_ne_nil hus.ne_nil
    have htoken : ((stop.behind us).behind [token]).rest.length ≤ bound := hstart
    exact Cursor.length_lt_of_behind (Cursor.length_lt_of_token htoken)
  have hne : Category.access ≠ .primary := by simp
  simp only [get_bind]
  refine Outcome.mono
    (reads_accesses h stop.rest hlength rfl (.tighter hne hus)) ?_
  intro e last hread
  rcases hread with ⟨vs, rfl, hvs⟩
  exact ⟨us ++ vs, by simp, hvs⟩

/-- A unary operator in front of a phrase applies to what is read behind it. -/
theorem unary_behind {token : Token} {op : UnaryOp} (hop : unaryOp? token = some op)
    (next : Cursor) :
    unary sub (next.behind [token]) = (unary sub >>= fun e => pure (.unary op e)) next := by
  have hops : unaryOps (next.behind [token]).rest =
      (op :: (unaryOps next.rest).1, (unaryOps next.rest).2) := by
    simp [unaryOps, hop]
  simp only [unary, get_bind, bind_assoc, pure_bind]
  rw [hops]
  rfl

/-- Without a unary operator in front, a unary phrase is a primary with its accesses. -/
theorem unary_of_none {start : Cursor}
    (h : ∀ token ∈ start.next?, unaryOp? token = none) :
    unary sub start = access sub start := by
  have hops : unaryOps start.rest = ([], start.rest) := by
    cases hrest : start.rest with
    | nil => rfl
    | cons token rest =>
      have hop : unaryOp? token = none := by
        by_cases marker : token.kind = .endOfInput
        · simp [unaryOp?, Token.isOperator, marker]
        · exact h token (by simp [Cursor.next?_eq, hrest, Token.named?, marker])
      simp [unaryOps, hop]
  simp only [unary, get_bind, hops]
  exact congrFun (bind_pure (access sub)) start

theorem reads_unary (h : InnerReads bad bound sub) :
    ∀ {start : Cursor}, start.rest.length ≤ bound → Reads .unary bad (unary sub) start := by
  suffices hrest : ∀ (rest : List Token) {start : Cursor}, start.rest = rest →
      start.rest.length ≤ bound → Reads .unary bad (unary sub) start from
    fun {start} => hrest start.rest rfl
  intro rest
  induction rest with
  | nil =>
    intro start hrest hstart
    rw [Reads, unary_of_none (by simp [Cursor.next?_eq, hrest])]
    exact Reads.of_tighter (by simp) (reads_access h hstart)
  | cons token rest ih =>
    intro start hrest hstart
    cases hop : unaryOp? token with
    | none =>
      rw [Reads, unary_of_none (by simp [Cursor.next?_eq, hrest, Token.named?, hop])]
      exact Reads.of_tighter (by simp) (reads_access h hstart)
    | some op =>
      obtain ⟨next, rfl⟩ := Cursor.eq_behind_of_rest hrest
      rw [Reads, unary_behind hop]
      have hnext : next.rest = rest := by simpa using hrest
      apply Outcome.bind (ih hnext (Cursor.length_le_of_behind hstart))
      intro e stop hread
      rcases hread with ⟨us, rfl, hus⟩
      refine ⟨token :: us, by simp, ?_⟩
      have hsymbol := unaryOp?_eq_some_iff.1 hop
      cases op with
      | not => exact .not hsymbol hus
      | neg => exact .neg hsymbol hus

/-- The operations behind a phrase make a longer phrase of it, if the operands are phrases
of the next tighter category. -/
theorem reads_operations {category : Category} {operand : ParseM Expr}
    (hoperand : ∀ {start : Cursor}, start.rest.length ≤ bound →
      Reads category.tighter bad operand start) {room : Nat} :
    ∀ (budget : List Token) {us : List Token} {left : Expr} {start : Cursor},
      start.rest.length ≤ bound → start.room = room → Derives category room us left →
      Outcome (fun e stop => ∃ vs, start = stop.behind vs ∧
        Derives category room (us ++ vs) e) bad
        (operations category.level operand budget left start)
  | [], us, left, start, _, _, hus => ⟨[], rfl, by simpa using hus⟩
  | _ :: budget, us, left, start, hstart, hroom, hus => by
    rw [operations, peek_bind]
    cases hnext : start.next?.bind (binaryOp? category.level) with
    | none => exact ⟨[], rfl, by simpa using hus⟩
    | some op =>
      obtain ⟨token, inside, hop, next, rfl⟩ := exists_of_bind_binaryOp?_eq_some hnext
      obtain ⟨hsymbol, hmem⟩ := binaryOp?_eq_some_iff.1 hop
      have hnext := Cursor.length_le_of_behind hstart
      simp only [advance_bind inside]
      apply Outcome.bind (hoperand hnext)
      intro right stop hread
      rcases hread with ⟨vs, rfl, hvs⟩
      simp only [Cursor.room_behind] at hroom hvs
      rw [hroom] at hvs
      have hboth := Derives.operation (Category.mem_level_iff.1 hmem) hsymbol hus hvs
      refine Outcome.mono
        (reads_operations hoperand budget (Cursor.length_le_of_behind hnext) hroom hboth) ?_
      intro e last hread
      rcases hread with ⟨ws, rfl, hws⟩
      exact ⟨token :: (vs ++ ws), by simp, by simpa using hws⟩

theorem reads_chain {category : Category} (hne : category ≠ .primary) {operand : ParseM Expr}
    (hoperand : ∀ {start : Cursor}, start.rest.length ≤ bound →
      Reads category.tighter bad operand start) {start : Cursor}
    (hstart : start.rest.length ≤ bound) :
    Reads category bad (chain category.level operand) start := by
  apply Outcome.bind (hoperand hstart)
  intro first stop hread
  rcases hread with ⟨us, rfl, hus⟩
  refine Outcome.mono
    (reads_operations hoperand stop.rest (Cursor.length_le_of_behind hstart) rfl
      (.tighter hne hus)) ?_
  intro e last hread
  rcases hread with ⟨vs, rfl, hvs⟩
  exact ⟨us ++ vs, by simp, hvs⟩

theorem reads_conditionalWith (h : InnerReads bad bound sub) {start : Cursor}
    (hstart : start.rest.length ≤ bound)
    (htest : Reads .logicalOr bad (binary sub BinaryOp.levels) start) :
    Reads .conditional bad (conditionalWith sub) start := by
  apply Outcome.bind htest
  intro test stop hread
  rcases hread with ⟨us, rfl, hus⟩
  have hne : Category.conditional ≠ .primary := by simp
  refine Outcome.accept_bind ?_ ⟨us, rfl, .tighter hne hus⟩
  intro question next hnext hquestion
  subst hnext
  have hbranches := Cursor.length_lt_of_token (Cursor.length_le_of_behind hstart)
  simp only [↓reduceIte]
  apply h.enter_bind hbranches
  intro consequent vs last hconsequent hroom hvs
  subst hconsequent
  refine Outcome.accept_bind ?_ (h.bad_of_ne _ _ (by simp))
  intro colon after hafter hcolon
  obtain ⟨behindColon, rfl, rfl⟩ := Cursor.exists_of_deeper_eq_behind hafter
  simp only [↓reduceIte]
  have hlast := Cursor.length_lt_of_behind (Cursor.length_lt_of_behind hbranches)
  apply Outcome.bind (h.reads behindColon.deeper hlast)
  intro alternate final hread
  rcases hread with ⟨ws, hfinal, hws⟩
  obtain ⟨outer, rfl, rfl⟩ := Cursor.exists_of_deeper_eq_behind hfinal
  simp only [leave_bind]
  refine ⟨us ++ question :: (vs ++ colon :: ws), by simp, ?_⟩
  simp only [Cursor.room_behind, Cursor.deeper_behind] at hroom hus hvs hws ⊢
  rw [hroom] at hus ⊢
  exact .choice hquestion (by simpa using hcolon) hus hvs hws

theorem reads_category (h : InnerReads bad bound sub) (category : Category)
    {start : Cursor} (hstart : start.rest.length ≤ bound) :
    Reads category bad (parser sub category) start := by
  induction category using Category.tighter_induction generalizing start with
  | primary => exact reads_primary h hstart
  | loosen category hne ih =>
    cases category with
    | primary => exact absurd rfl hne
    | access => exact reads_access h hstart
    | unary => exact reads_unary h hstart
    | conditional => exact reads_conditionalWith h hstart (ih hstart)
    | _ => exact reads_chain hne ih hstart

end Categories

/-- Whatever the number of activations, a conditional that is read is a phrase, and a
fault is one of parsing. -/
theorem reads_conditional (activations : Nat) (start : Cursor) :
    Reads .conditional OfParsing (conditional activations) start := by
  induction activations generalizing start with
  | zero => exact ⟨_, _, rfl⟩
  | succ activations ih =>
    have hinner : InnerReads OfParsing start.rest.length (conditional activations) :=
      ⟨fun cause position _ => ⟨cause, position, rfl⟩, fun inner _ => ih inner⟩
    exact reads_category hinner .conditional (Nat.le_refl _)

theorem reads_category_conditional (activations : Nat) (category : Category)
    (start : Cursor) :
    Reads category OfParsing (parser (conditional activations) category) start := by
  have hinner : InnerReads OfParsing start.rest.length (conditional activations) :=
    ⟨fun cause position _ => ⟨cause, position, rfl⟩, fun inner _ =>
      reads_conditional activations inner⟩
  exact reads_category hinner category (Nat.le_refl _)

/-- With an activation for every token to come, and one more, none is missing. -/
theorem reads_conditional_of_length_lt {activations : Nat} {start : Cursor}
    (h : start.rest.length < activations) :
    Reads .conditional
      (fun fault => ∃ cause position, fault = .parse cause position ∧
        cause ≠ .tooManyActivations)
      (conditional activations) start := by
  induction activations generalizing start with
  | zero => exact absurd h (Nat.not_lt_zero _)
  | succ activations ih =>
    have hinner : InnerReads
        (fun fault => ∃ cause position, fault = .parse cause position ∧
          cause ≠ .tooManyActivations)
        start.rest.length (conditional activations) :=
      ⟨fun cause position hne => ⟨cause, position, rfl, hne⟩, fun inner hinner =>
        ih (by omega)⟩
    exact reads_category hinner .conditional (Nat.le_refl _)

end Parse

end GuardedExpr
