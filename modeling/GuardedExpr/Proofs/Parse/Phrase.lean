import GuardedExpr.Proofs.Parse.Grammar
import GuardedExpr.Proofs.Token.Reading

/-!
# Phrases in other places

A phrase may stand where more nesting is allowed and where a looser category is
asked for. What it stands for depends on the kinds and texts of its tokens only,
and not on their places.
-/

namespace GuardedExpr

variable {category : Category} {room room' : Nat} {us vs : List Token} {e : Expr}

theorem Derives.mono (h : Derives category room us e) (more : room ≤ room') :
    Derives category room' us e := by
  induction h generalizing room' with
  | tighter hne _ ih => exact .tighter hne (ih more)
  | choice hquestion hcolon _ _ _ iht ihc iha =>
    cases room' with
    | zero => cases more
    | succ room' =>
      have fewer := Nat.le_of_succ_le_succ more
      exact .choice hquestion hcolon (iht more) (ihc fewer) (iha fewer)
  | operation hop htoken _ _ ihl ihr => exact .operation hop htoken (ihl more) (ihr more)
  | not htoken _ ih => exact .not htoken (ih more)
  | neg htoken _ ih => exact .neg htoken (ih more)
  | member hdot hname _ ih => exact .member hdot hname (ih more)
  | index hleft hright _ _ ihe ihkey =>
    cases room' with
    | zero => cases more
    | succ room' =>
      exact .index hleft hright (ihe more) (ihkey (Nat.le_of_succ_le_succ more))
  | number hkind hread => exact .number hkind hread
  | string hkind => exact .string hkind
  | boolean hkind => exact .boolean hkind
  | null hkind => exact .null hkind
  | identifier hkind => exact .identifier hkind
  | parens hleft hright _ ih =>
    cases room' with
    | zero => cases more
    | succ room' => exact .parens hleft hright (ih (Nat.le_of_succ_le_succ more))

/-! ## Contents -/

theorem Token.isOperator_congr {token other : Token} (kind : other.kind = token.kind)
    (text : other.text = token.text) (symbol : String) :
    other.isOperator symbol = token.isOperator symbol := by
  rw [Token.isOperator, Token.isOperator, kind, text]

theorem exists_cons_of_contents {token : Token} {contents : List (TokenKind × String)}
    (same : vs.map Token.content = token.content :: contents) :
    ∃ other rest, vs = other :: rest ∧ other.kind = token.kind ∧ other.text = token.text ∧
      rest.map Token.content = contents := by
  obtain ⟨other, rest, rfl, first, further⟩ := List.map_eq_cons_iff.1 same
  obtain ⟨kind, text⟩ := Prod.mk.inj first
  exact ⟨other, rest, rfl, kind, text, further⟩

theorem exists_singleton_of_contents {token : Token}
    (same : vs.map Token.content = [token.content]) :
    ∃ other, vs = [other] ∧ other.kind = token.kind ∧ other.text = token.text := by
  obtain ⟨other, rest, rfl, kind, text, further⟩ := exists_cons_of_contents same
  obtain rfl := List.map_eq_nil_iff.1 further
  exact ⟨other, rfl, kind, text⟩

/-- A phrase stands for the same expression wherever its tokens stand. -/
theorem Derives.of_contents (h : Derives category room us e)
    (same : vs.map Token.content = us.map Token.content) : Derives category room vs e := by
  induction h generalizing vs with
  | tighter hne _ ih => exact .tighter hne (ih same)
  | choice hquestion hcolon _ _ _ iht ihc iha =>
    rw [List.map_append, List.map_cons, List.map_append, List.map_cons] at same
    obtain ⟨ts, rest, rfl, ht, same⟩ := List.map_eq_append_iff.1 same
    obtain ⟨question, rest, rfl, kind, text, same⟩ := exists_cons_of_contents same
    obtain ⟨cs, rest, rfl, hc, same⟩ := List.map_eq_append_iff.1 same
    obtain ⟨colon, as, rfl, kind', -, ha⟩ := exists_cons_of_contents same
    rw [← Token.isOperator_congr kind text] at hquestion
    exact .choice hquestion (kind'.trans hcolon) (iht ht) (ihc hc) (iha ha)
  | operation hop htoken _ _ ihl ihr =>
    rw [List.map_append, List.map_cons] at same
    obtain ⟨ls, rest, rfl, hl, same⟩ := List.map_eq_append_iff.1 same
    obtain ⟨token, rs, rfl, kind, text, hr⟩ := exists_cons_of_contents same
    rw [← Token.isOperator_congr kind text] at htoken
    exact .operation hop htoken (ihl hl) (ihr hr)
  | not htoken _ ih =>
    obtain ⟨token, rest, rfl, kind, text, same⟩ := exists_cons_of_contents same
    rw [← Token.isOperator_congr kind text] at htoken
    exact .not htoken (ih same)
  | neg htoken _ ih =>
    obtain ⟨token, rest, rfl, kind, text, same⟩ := exists_cons_of_contents same
    rw [← Token.isOperator_congr kind text] at htoken
    exact .neg htoken (ih same)
  | member hdot hname _ ih =>
    rw [List.map_append, List.map_cons, List.map_singleton] at same
    obtain ⟨os, rest, rfl, ho, same⟩ := List.map_eq_append_iff.1 same
    obtain ⟨dot, rest, rfl, kind, -, same⟩ := exists_cons_of_contents same
    obtain ⟨name, rfl, kind', text⟩ := exists_singleton_of_contents same
    rw [← text]
    exact .member (kind.trans hdot) (kind'.trans hname) (ih ho)
  | index hleft hright _ _ ihe ihkey =>
    rw [List.map_append, List.map_cons, List.map_append, List.map_singleton] at same
    obtain ⟨os, rest, rfl, ho, same⟩ := List.map_eq_append_iff.1 same
    obtain ⟨left, rest, rfl, kind, -, same⟩ := exists_cons_of_contents same
    obtain ⟨ks, rest, rfl, hk, same⟩ := List.map_eq_append_iff.1 same
    obtain ⟨right, rfl, kind', -⟩ := exists_singleton_of_contents same
    exact .index (kind.trans hleft) (kind'.trans hright) (ihe ho) (ihkey hk)
  | parens hleft hright _ ih =>
    rw [List.map_cons, List.map_append, List.map_singleton] at same
    obtain ⟨left, rest, rfl, kind, -, same⟩ := exists_cons_of_contents same
    obtain ⟨inner, rest, rfl, hinner, same⟩ := List.map_eq_append_iff.1 same
    obtain ⟨right, rfl, kind', -⟩ := exists_singleton_of_contents same
    exact .parens (kind.trans hleft) (kind'.trans hright) (ih hinner)
  | number hkind hread =>
    obtain ⟨token, rfl, kind, text⟩ := exists_singleton_of_contents same
    rw [← text] at hread
    exact .number (kind.trans hkind) hread
  | string hkind =>
    obtain ⟨token, rfl, kind, text⟩ := exists_singleton_of_contents same
    rw [← text]
    exact .string (kind.trans hkind)
  | boolean hkind =>
    obtain ⟨token, rfl, kind, text⟩ := exists_singleton_of_contents same
    rw [← text]
    exact .boolean (kind.trans hkind)
  | null hkind =>
    obtain ⟨token, rfl, kind, -⟩ := exists_singleton_of_contents same
    exact .null (kind.trans hkind)
  | identifier hkind =>
    obtain ⟨token, rfl, kind, text⟩ := exists_singleton_of_contents same
    rw [← text]
    exact .identifier (kind.trans hkind)

/-! ## Categories -/

/-- A phrase of a category is one of every looser category. -/
theorem Derives.looser {tight : Category} (h : Derives tight room us e)
    (loose : tight.looseness ≤ category.looseness) : Derives category room us e := by
  induction category using Category.tighter_induction with
  | primary =>
    obtain rfl : tight = .primary := by
      revert loose
      cases tight <;> decide
    exact h
  | loosen category hne ih =>
    obtain rfl | loose := Category.eq_or_looseness_le_tighter loose
    · exact h
    · exact .tighter hne (ih loose)

/-- A primary is a phrase of every category. -/
theorem Derives.of_primary (h : Derives .primary room us e) (category : Category) :
    Derives category room us e :=
  h.looser (Nat.zero_le _)

/-- A phrase of any category is a conditional. -/
theorem Derives.loosest (h : Derives category room us e) : Derives .conditional room us e :=
  h.looser (by cases category <;> decide)

end GuardedExpr
