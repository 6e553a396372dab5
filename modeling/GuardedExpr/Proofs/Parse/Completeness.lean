import Mathlib.Data.List.Basic
import GuardedExpr.Proofs.Parse.Activation

/-!
# Every phrase is read

The parser reads as far as it can, so a phrase is read to its end only where the next token
cannot belong to a longer phrase of the category: `Ends category stop`. Every token behind
a part of a phrase is of that kind, which is what makes the grammar unambiguous.

A phrase of a category with a loop has its left part in the same category. For these the
induction needs more than that the phrase is read: wherever the parser reads a phrase, it
goes on as if the loop had just come to its end. `resume` is that continuation.
-/

namespace GuardedExpr

/-- A token behind a phrase of the category may belong to a longer phrase of it. -/
inductive Continues : Category → Token → Prop where
  | question {token : Token} : token.isOperator "?" = true → Continues .conditional token
  | operator {category : Category} {token : Token} {op : BinaryOp} :
      token.isOperator op.symbol = true → op ∈ category.level → Continues category token
  | dot {token : Token} : token.kind = .dot → Continues .access token
  | bracket {token : Token} : token.kind = .leftBracket → Continues .access token
  | tighter {category : Category} {token : Token} :
      category ≠ .primary → Continues category.tighter token → Continues category token

/-- The category that an operation belongs to. -/
def BinaryOp.category : BinaryOp → Category
  | .or => .logicalOr
  | .and => .logicalAnd
  | .eq | .ne | .strictEq | .strictNe => .equality
  | .lt | .le | .gt | .ge => .relational
  | .add | .sub => .additive
  | .mul | .div | .rem => .multiplicative

theorem Category.eq_category_of_mem_level {category : Category} {op : BinaryOp}
    (h : op ∈ category.level) : category = op.category := by
  have hall : ∀ op ∈ category.level, category = op.category := by
    cases category <;> decide
  exact hall op h

namespace Continues

theorem kind {category : Category} {token : Token} (h : Continues category token) :
    token.kind = .operator ∨ token.kind = .dot ∨ token.kind = .leftBracket := by
  induction h with
  | question h => exact .inl (by simp_all [Token.isOperator])
  | operator h _ => exact .inl (by simp_all [Token.isOperator])
  | dot h => exact .inr (.inl h)
  | bracket h => exact .inr (.inr h)
  | tighter _ _ ih => exact ih

/-- An operator continues only phrases of its own category and of looser ones. -/
theorem looseness_le {category category' : Category} {token : Token} {op : BinaryOp}
    (h : Continues category' token) (hsymbol : token.isOperator op.symbol = true)
    (hop : op ∈ category.level) : category.looseness ≤ category'.looseness := by
  induction h with
  | question h =>
    simp only [Token.isOperator, Bool.and_eq_true, beq_iff_eq] at h hsymbol
    have hne : op.symbol ≠ "?" := by cases op <;> decide
    exact absurd (hsymbol.2.symm.trans h.2) hne
  | @operator category' token op' h hop' =>
    simp only [Token.isOperator, Bool.and_eq_true, beq_iff_eq] at h hsymbol
    have hsome := BinaryOp.ofSymbol?_symbol op
    rw [← hsymbol.2, h.2, BinaryOp.ofSymbol?_symbol] at hsome
    cases hsome
    have hcategory := (Category.eq_category_of_mem_level hop).trans
      (Category.eq_category_of_mem_level hop').symm
    exact Nat.le_of_eq (congrArg Category.looseness hcategory)
  | dot h => simp_all [Token.isOperator]
  | bracket h => simp_all [Token.isOperator]
  | tighter hne _ ih =>
    exact Nat.le_trans (ih hsymbol) (Nat.le_of_lt (Category.looseness_tighter_lt hne))

theorem eq_conditional {category : Category} {token : Token} (h : Continues category token)
    (hquestion : token.isOperator "?" = true) : category = .conditional := by
  induction h with
  | question _ => rfl
  | @operator category token op h _ =>
    simp only [Token.isOperator, Bool.and_eq_true, beq_iff_eq] at h hquestion
    have hne : op.symbol ≠ "?" := by cases op <;> decide
    exact absurd (h.2.symm.trans hquestion.2) hne
  | dot h => simp_all [Token.isOperator]
  | bracket h => simp_all [Token.isOperator]
  | @tighter category token _ _ ih =>
    have := ih hquestion
    cases category <;> simp_all [Category.tighter]

end Continues

namespace Parse

/-- No phrase of the category that ends at `stop` can be made longer by the next token. -/
def Ends (category : Category) (stop : Cursor) : Prop :=
  ∀ token ∈ stop.next?, ¬ Continues category token

theorem Ends.tighter {category : Category} {stop : Cursor} (h : Ends category stop)
    (hne : category ≠ .primary) : Ends category.tighter stop :=
  fun token htoken hcontinues => h token htoken (.tighter hne hcontinues)

theorem ends_primary (stop : Cursor) : Ends .primary stop := by
  intro token _ hcontinues
  cases hcontinues with
  | operator _ hop => simp [Category.level, Category.operators] at hop
  | tighter hne _ => exact hne rfl

/-- An operator ends the phrases of the tighter categories in front of it. -/
theorem ends_tighter_of_operator {category : Category} {op : BinaryOp} {token : Token}
    (hne : category ≠ .primary) (hop : op ∈ category.level)
    (hsymbol : token.isOperator op.symbol = true) (stop : Cursor) :
    Ends category.tighter (stop.behind [token]) := by
  intro token' htoken' hcontinues
  obtain rfl : token = token' := (Cursor.next?_eq_some_iff.1 htoken').2
  have hle := hcontinues.looseness_le hsymbol hop
  exact absurd hle (Nat.not_le.2 (Category.looseness_tighter_lt hne))

theorem ends_of_question {category : Category} {token : Token}
    (hne : category ≠ .conditional) (hquestion : token.isOperator "?" = true)
    (stop : Cursor) :
    Ends category (stop.behind [token]) := by
  intro token' htoken' hcontinues
  obtain rfl : token = token' := (Cursor.next?_eq_some_iff.1 htoken').2
  exact hne (hcontinues.eq_conditional hquestion)

/-- Tokens that close a part of a phrase end everything in front of them. -/
theorem ends_of_kind {category : Category} {token : Token}
    (h : token.kind = .colon ∨ token.kind = .rightParen ∨ token.kind = .rightBracket)
    (stop : Cursor) : Ends category (stop.behind [token]) := by
  intro token' htoken' hcontinues
  obtain rfl : token = token' := (Cursor.next?_eq_some_iff.1 htoken').2
  have hkind := hcontinues.kind
  rcases h with h | h | h <;> simp [h] at hkind

/-- The category whose phrases have to end for the parser to come to `resume`: for a
category with a loop, that of the parts of the loop. -/
def inside : Category → Category
  | .conditional => .conditional
  | .unary => .unary
  | .primary => .primary
  | category => category.tighter

/-- What the parser of a category does once it has read `e`. -/
def resume (sub : ParseM Expr) : Category → Expr → ParseM Expr
  | .conditional, e => pure e
  | .unary, e => pure e
  | .primary, e => pure e
  | .access, e => do accesses sub (← get).rest e
  | category, e => do operations category.level (parser sub category.tighter) (← get).rest e

theorem Ends.inside {category : Category} {stop : Cursor} (h : Ends category stop) :
    Ends (inside category) stop := by
  cases category with
  | conditional => exact h
  | unary => exact h
  | primary => exact h
  | _ => exact h.tighter (by simp)

/-- Where a loop cannot go on, it gives what has been read. -/
theorem operations_of_ends {category : Category} {operand : ParseM Expr} {stop : Cursor}
    (h : Ends category stop) (budget : List Token) (e : Expr) :
    operations category.level operand budget e stop = .ok (e, stop) := by
  cases budget with
  | nil => rfl
  | cons _ budget =>
    rw [operations, peek_bind]
    cases hop : stop.next?.bind (binaryOp? category.level) with
    | none => rfl
    | some op =>
      obtain ⟨token, hnext, hop⟩ := Option.bind_eq_some_iff.1 hop
      obtain ⟨hsymbol, hmem⟩ := binaryOp?_eq_some_iff.1 hop
      exact absurd (.operator hsymbol hmem) (h token hnext)

theorem accesses_of_ends {sub : ParseM Expr} {stop : Cursor} (h : Ends .access stop)
    (budget : List Token) (e : Expr) : accesses sub budget e stop = .ok (e, stop) := by
  cases budget with
  | nil => rfl
  | cons _ budget =>
    rw [accesses, peek_bind]
    cases hnext : stop.next? with
    | none => rfl
    | some token =>
      cases hk : token.kind with
      | dot => exact absurd (.dot hk) (h token hnext)
      | leftBracket => exact absurd (.bracket hk) (h token hnext)
      | _ => simp [hk]

theorem resume_of_ends {sub : ParseM Expr} {category : Category} {stop : Cursor}
    (h : Ends category stop) (e : Expr) : resume sub category e stop = .ok (e, stop) := by
  cases category with
  | conditional => rfl
  | unary => rfl
  | primary => rfl
  | access => exact accesses_of_ends h _ e
  | _ => exact operations_of_ends h _ e

/-- Neither an access nor a primary starts with an operator. -/
theorem unaryOp?_of_derives {category : Category} {room : Nat} {us : List Token} {e : Expr}
    (h : Derives category room us e) (htight : category = .access ∨ category = .primary) :
    ∀ token ∈ us.head?, unaryOp? token = none := by
  suffices hkind : ∀ token ∈ us.head?, token.kind ≠ .operator by
    intro token htoken
    simp [unaryOp?, Token.isOperator, hkind token htoken]
  induction h with
  | tighter hne _ ih =>
    exact ih (by rcases htight with rfl | rfl <;> simp_all [Category.tighter])
  | choice => simp at htight
  | operation hop => rcases htight with rfl | rfl <;> simp [Category.operators] at hop
  | not => simp at htight
  | neg => simp at htight
  | member _ _ hus ih | index _ _ hus _ ih _ =>
    rw [List.head?_append_of_ne_nil _ hus.ne_nil]
    exact ih htight
  | _ => simp_all

/-- A category with operations has the loop that reads them. -/
theorem inside_of_mem_level {category : Category} {op : BinaryOp}
    (hop : op ∈ category.level) :
    inside category = category.tighter := by
  cases category with
  | conditional | unary | primary => simp [Category.level, Category.operators] at hop
  | _ => rfl

theorem resume_of_mem_level {category : Category} {op : BinaryOp} (hop : op ∈ category.level)
    (sub : ParseM Expr) (e : Expr) (stop : Cursor) :
    resume sub category e stop =
      operations category.level (parser sub category.tighter) stop.rest e stop := by
  cases category with
  | conditional | unary | access | primary =>
    simp [Category.level, Category.operators] at hop
  | _ => rfl

/-- A phrase that ends at `stop` is read to its end, if it is read as far as `resume`. -/
theorem eq_ok_of_resume {sub : ParseM Expr} {category : Category} {start stop : Cursor}
    {e : Expr} (h : parser sub category start = resume sub category e stop)
    (hends : Ends category stop) :
    parser sub category start = .ok (e, stop) :=
  h.trans (resume_of_ends hends e)

/-- A phrase of the next tighter category is read like a phrase of the category itself. -/
theorem parser_of_tighter {sub : ParseM Expr} {category : Category} {room : Nat}
    {us : List Token} {e : Expr} {stop : Cursor} (hne : category ≠ .primary)
    (hus : Derives category.tighter room us e) (hends : Ends (inside category) stop)
    (h : Ends category.tighter stop →
      parser sub category.tighter (stop.behind us) = .ok (e, stop)) :
    parser sub category (stop.behind us) = resume sub category e stop := by
  cases category with
  | primary => exact absurd rfl hne
  | conditional =>
    have hquestion : ∀ token ∈ stop.next?, token.isOperator "?" = false := by
      intro token htoken
      by_contra hq
      exact hends token htoken (.question (by simpa using hq))
    exact (bind_ok (h (hends.tighter hne)) _).trans (accept_bind_of_eq_false hquestion _)
  | unary =>
    have hop : ∀ token ∈ (stop.behind us).next?, unaryOp? token = none := by
      intro token htoken
      exact unaryOp?_of_derives hus (.inl rfl) token
        (Cursor.mem_head?_of_mem_next?_behind hus.ne_nil htoken)
    exact (unary_of_none hop).trans (h (hends.tighter hne))
  | _ => exact bind_ok (h hends) _

/-- An operator of a category between two phrases: the parser has read both when it comes
to the end of the loop. -/
theorem operations_behind {category : Category} {operand : ParseM Expr} {op : BinaryOp}
    {token : Token} {vs : List Token} {l r : Expr} {stop : Cursor}
    (hreads : ∀ start : Cursor, Reads category.tighter OfParsing operand start)
    (hop : op ∈ category.level) (hsymbol : token.isOperator op.symbol = true)
    (hr : operand (stop.behind vs) = .ok (r, stop)) :
    operations category.level operand (token :: (vs ++ stop.rest)) l
        ((stop.behind vs).behind [token]) =
      operations category.level operand stop.rest (.binary op l r) stop := by
  have hop' : binaryOp? category.level token = some op :=
    binaryOp?_eq_some_iff.2 ⟨hsymbol, hop⟩
  have inside := Token.kind_ne_endOfInput_of_isOperator hsymbol
  rw [operations, peek_bind, Cursor.next?_behind_cons inside]
  simp only [Option.bind_some, hop', advance_bind inside]
  rw [bind_ok hr]
  exact operations_budget hreads _ _ _ (by simp) (Nat.le_refl _)

theorem accesses_behind_dot {sub : ParseM Expr} {dot name : Token} {e : Expr}
    {stop : Cursor} (hreads : ∀ inner : Cursor, Reads .conditional OfParsing sub inner)
    (hdot : dot.kind = .dot) (hname : name.kind = .identifier) :
    accesses sub (dot :: name :: stop.rest) e ((stop.behind [name]).behind [dot]) =
      accesses sub stop.rest (.member e name.text) stop := by
  have insideDot : dot.kind ≠ .endOfInput := by simp [hdot]
  have insideName : name.kind ≠ .endOfInput := by simp [hname]
  rw [accesses, peek_bind, Cursor.next?_behind_cons insideDot]
  simp only [hdot, advance_bind insideDot, peek_bind, Cursor.next?_behind_cons insideName,
    hname, ↓reduceIte, advance_bind insideName]
  exact accesses_budget hreads _ _ _ (by simp) (Nat.le_refl _)

theorem accesses_behind_bracket {sub : ParseM Expr} {left right : Token} {vs : List Token}
    {e key : Expr} {stop : Cursor}
    (hreads : ∀ inner : Cursor, Reads .conditional OfParsing sub inner)
    (hleft : left.kind = .leftBracket) (hright : right.kind = .rightBracket)
    (hnesting : stop.nesting < maxNesting)
    (hkey : sub ((stop.behind [right]).deeper.behind vs) =
      .ok (key, (stop.behind [right]).deeper)) :
    accesses sub (left :: (vs ++ right :: stop.rest)) e
        (((stop.behind [right]).behind vs).behind [left]) =
      accesses sub stop.rest (.index e key) stop := by
  have hright' : (right.kind == .rightBracket) = true := by simp [hright]
  have hlt : ((stop.behind [right]).behind vs).nesting < maxNesting := hnesting
  have insideLeft : left.kind ≠ .endOfInput := by simp [hleft]
  have insideRight : right.kind ≠ .endOfInput := by simp [hright]
  rw [accesses, peek_bind, Cursor.next?_behind_cons insideLeft]
  simp only [hleft, advance_bind insideLeft]
  rw [enter_bind_of_lt hlt, Cursor.deeper_behind, bind_ok hkey, Cursor.deeper_behind,
    accept_bind_of_eq_true insideRight hright']
  simp only [↓reduceIte, leave_bind]
  refine accesses_budget hreads _ _ _ ?_ (Nat.le_refl _)
  simp only [List.length_append, List.length_cons]
  omega

theorem choice_behind {sub : ParseM Expr} {question colon : Token} {us vs ws : List Token}
    {t c a : Expr} {stop : Cursor} (hquestion : question.isOperator "?" = true)
    (hcolon : colon.kind = .colon) (hnesting : stop.nesting < maxNesting)
    (ht : binary sub BinaryOp.levels
        (((((stop.behind ws).behind [colon]).behind vs).behind [question]).behind us) =
      .ok (t, (((stop.behind ws).behind [colon]).behind vs).behind [question]))
    (hc : sub (((stop.behind ws).behind [colon]).deeper.behind vs) =
      .ok (c, ((stop.behind ws).behind [colon]).deeper))
    (ha : sub (stop.deeper.behind ws) = .ok (a, stop.deeper)) :
    conditionalWith sub
        (((((stop.behind ws).behind [colon]).behind vs).behind [question]).behind us) =
      .ok (.conditional t c a, stop) := by
  have hcolon' : (colon.kind == .colon) = true := by simp [hcolon]
  have hlt : (((stop.behind ws).behind [colon]).behind vs).nesting < maxNesting := hnesting
  have insideQuestion := Token.kind_ne_endOfInput_of_isOperator hquestion
  have insideColon : colon.kind ≠ .endOfInput := by simp [hcolon]
  rw [conditionalWith, bind_ok ht, accept_bind_of_eq_true insideQuestion hquestion]
  simp only [↓reduceIte]
  rw [enter_bind_of_lt hlt, Cursor.deeper_behind, bind_ok hc, Cursor.deeper_behind,
    accept_bind_of_eq_true insideColon hcolon']
  simp only [↓reduceIte]
  rw [Cursor.deeper_behind, bind_ok ha]
  rfl

theorem primary_behind_paren {sub : ParseM Expr} {left right : Token} {us : List Token}
    {e : Expr} {stop : Cursor} (hleft : left.kind = .leftParen)
    (hright : right.kind = .rightParen) (hnesting : stop.nesting < maxNesting)
    (he : sub ((stop.behind [right]).deeper.behind us) =
      .ok (e, (stop.behind [right]).deeper)) :
    primary sub (((stop.behind [right]).behind us).behind [left]) = .ok (e, stop) := by
  have hright' : (right.kind == .rightParen) = true := by simp [hright]
  have hlt : ((stop.behind [right]).behind us).nesting < maxNesting := hnesting
  have insideLeft : left.kind ≠ .endOfInput := by simp [hleft]
  have insideRight : right.kind ≠ .endOfInput := by simp [hright]
  rw [primary, peek_bind, Cursor.next?_behind_cons insideLeft]
  simp only [hleft, advance_bind insideLeft]
  rw [enter_bind_of_lt hlt, Cursor.deeper_behind, bind_ok he, Cursor.deeper_behind,
    accept_bind_of_eq_true insideRight hright']
  rfl

theorem unary_behind_eq_ok {sub : ParseM Expr} {token : Token} {op : UnaryOp}
    {us : List Token} {e : Expr} {stop : Cursor} (hop : token.isOperator op.symbol = true)
    (he : unary sub (stop.behind us) = .ok (e, stop)) :
    unary sub (stop.behind (token :: us)) = .ok (.unary op e, stop) := by
  have hstart : stop.behind (token :: us) = (stop.behind us).behind [token] := by simp
  rw [hstart, unary_behind (unaryOp?_eq_some_iff.2 hop)]
  exact bind_ok he _

/-- Wherever a phrase stands and its loop may end, the parser reads it. -/
theorem parser_behind {category : Category} {room : Nat} {us : List Token} {e : Expr}
    (h : Derives category room us e) :
    ∀ (activations : Nat) (stop : Cursor), stop.room = room → room ≤ activations →
      Ends (inside category) stop →
      parser (conditional activations) category (stop.behind us) =
        resume (conditional activations) category e stop := by
  induction h with
  | tighter hne hus ih =>
    intro activations stop hroom hactivations hends
    refine parser_of_tighter hne hus hends fun hends' => ?_
    exact eq_ok_of_resume (ih activations stop hroom hactivations hends'.inside) hends'
  | @choice room us vs ws question colon t c a hquestion hcolon ht hc ha iht ihc iha =>
    intro activations stop hroom hactivations hends
    obtain ⟨activations, rfl⟩ := Nat.exists_eq_add_of_lt hactivations
    have hstart : stop.behind (us ++ question :: (vs ++ colon :: ws)) =
        ((((stop.behind ws).behind [colon]).behind vs).behind [question]).behind us := by
      simp
    have hlt := Cursor.nesting_lt_of_room_eq_succ hroom
    have hdeeper := Cursor.room_deeper_of_eq_succ hroom
    have htest := @ends_of_question .logicalOr question (by simp) hquestion
      (((stop.behind ws).behind [colon]).behind vs)
    have hbranch := @ends_of_kind .conditional colon (.inl hcolon) (stop.behind ws).deeper
    rw [hstart]
    refine choice_behind hquestion hcolon hlt ?_ ?_ ?_
    · exact eq_ok_of_resume
        (iht _ ((((stop.behind ws).behind [colon]).behind vs).behind [question])
          hroom hactivations htest.inside) htest
    · exact eq_ok_of_resume
        (ihc (room + activations) ((stop.behind ws).behind [colon]).deeper hdeeper (by omega)
          hbranch) hbranch
    · exact eq_ok_of_resume
        (iha (room + activations) stop.deeper hdeeper (by omega) hends) hends
  | @operation category room us vs symbol op token l r hmem hsymbol hl hr ihl ihr =>
    intro activations stop hroom hactivations hends
    obtain rfl := Category.symbol_of_mem_operators hmem
    have hop := Category.mem_level_iff.2 hmem
    have hne : category ≠ .primary := by
      rintro rfl
      simp [Category.operators] at hmem
    have hstart : stop.behind (us ++ token :: vs) =
        ((stop.behind vs).behind [token]).behind us := by simp
    rw [inside_of_mem_level hop] at ihl hends
    have hleft := ends_tighter_of_operator hne hop hsymbol (stop.behind vs)
    have hright :=
      eq_ok_of_resume (ihr activations stop hroom hactivations hends.inside) hends
    have hreads := reads_category_conditional activations category.tighter
    rw [hstart, ihl activations ((stop.behind vs).behind [token]) hroom hactivations hleft,
      resume_of_mem_level hop, resume_of_mem_level hop]
    exact operations_behind hreads hop hsymbol hright
  | not hop hus ih | neg hop hus ih =>
    intro activations stop hroom hactivations hends
    exact unary_behind_eq_ok hop
      (eq_ok_of_resume (ih activations stop hroom hactivations hends) hends)
  | @member room us dot name e hdot hname hus ih =>
    intro activations stop hroom hactivations hends
    have hstart : stop.behind (us ++ [dot, name]) =
        ((stop.behind [name]).behind [dot]).behind us := by simp
    rw [hstart,
      ih activations ((stop.behind [name]).behind [dot]) hroom hactivations (ends_primary _)]
    exact accesses_behind_dot (reads_conditional activations) hdot hname
  | @index room us vs left right e key hleft hright hus hkey ih ihkey =>
    intro activations stop hroom hactivations hends
    obtain ⟨activations, rfl⟩ := Nat.exists_eq_add_of_lt hactivations
    have hstart : stop.behind (us ++ left :: (vs ++ [right])) =
        (((stop.behind [right]).behind vs).behind [left]).behind us := by simp
    have hlt := Cursor.nesting_lt_of_room_eq_succ hroom
    have hdeeper := Cursor.room_deeper_of_eq_succ hroom
    have hinner := @ends_of_kind .conditional right (.inr (.inr hright)) stop.deeper
    have hread := eq_ok_of_resume
      (ihkey (room + activations) (stop.behind [right]).deeper hdeeper
        (by omega) hinner) hinner
    rw [hstart, ih _ (((stop.behind [right]).behind vs).behind [left]) hroom hactivations
      (ends_primary _)]
    exact accesses_behind_bracket (reads_conditional _) hleft hright hlt hread
  | @number _ token _ hk hx =>
    intro activations stop _ _ _
    have inside : token.kind ≠ .endOfInput := by simp [hk]
    rw [parser, primary, peek_bind, Cursor.next?_behind_cons inside]
    simp only [hk, advance_bind inside, number, hx, resume]
  | @string _ token hk | @boolean _ token hk | @null _ token hk | @identifier _ token hk =>
    intro activations stop _ _ _
    have inside : token.kind ≠ .endOfInput := by simp [hk]
    rw [parser, primary, peek_bind, Cursor.next?_behind_cons inside]
    simp only [hk, advance_bind inside, resume]
  | @parens room us left right e hleft hright hus ih =>
    intro activations stop hroom hactivations hends
    obtain ⟨activations, rfl⟩ := Nat.exists_eq_add_of_lt hactivations
    have hstart : stop.behind (left :: (us ++ [right])) =
        ((stop.behind [right]).behind us).behind [left] := by simp
    have hlt := Cursor.nesting_lt_of_room_eq_succ hroom
    have hdeeper := Cursor.room_deeper_of_eq_succ hroom
    have hinner := @ends_of_kind .conditional right (.inr (.inl hright)) stop.deeper
    have hread := eq_ok_of_resume
      (ih (room + activations) (stop.behind [right]).deeper hdeeper (by omega) hinner) hinner
    rw [hstart]
    exact primary_behind_paren hleft hright hlt hread

/-- With an activation more than there are levels to open, a
conditional is read to its end. -/
theorem conditional_behind {us : List Token} {e : Expr} {stop : Cursor} {activations : Nat}
    (h : Derives .conditional stop.room us e) (hactivations : stop.room < activations)
    (hends : Ends .conditional stop) :
    conditional activations (stop.behind us) = .ok (e, stop) := by
  cases activations with
  | zero => exact absurd hactivations (Nat.not_lt_zero _)
  | succ activations =>
    exact eq_ok_of_resume
      (parser_behind h activations stop rfl (Nat.le_of_lt_succ hactivations) hends) hends

end Parse

end GuardedExpr
