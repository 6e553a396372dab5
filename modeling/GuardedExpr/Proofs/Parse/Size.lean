import GuardedExpr.Proofs.Expr.Unbounded
import GuardedExpr.Proofs.Parse.Phrase
import GuardedExpr.Proofs.Parse.Source

/-!
# The size of an expression

Every node of an expression has a token of its own among those of its phrase: its
operator, bracket or dot, or the literal or name that it is. So an expression has no
more nodes than tokens, no path in it is longer, and a ceiling as high as the number of
tokens cuts nothing off.
-/

namespace GuardedExpr

/-- No path of a tree has more nodes than the tree. -/
theorem Expr.height_le_length_parts (expr : Expr) : expr.height ≤ expr.parts.length := by
  induction expr with
  | literal | identifier => exact Nat.le_refl _
  | binary op left right ihl ihr =>
    simp only [height, parts, List.length_cons, List.length_append]
    omega
  | unary op operand ih => exact Nat.succ_le_succ ih
  | member object property ih => exact Nat.succ_le_succ ih
  | index object key iho ihk =>
    simp only [height, parts, List.length_cons, List.length_append]
    omega
  | conditional test consequent alternate iht ihc iha =>
    simp only [height, parts, List.length_cons, List.length_append]
    omega

/-- A phrase has a token for every node of its expression. -/
theorem Derives.length_parts_le {category : Category} {room : Nat} {us : List Token}
    {e : Expr} (h : Derives category room us e) : e.parts.length ≤ us.length := by
  induction h with
  | tighter _ _ ih => exact ih
  | choice _ _ _ _ _ iht ihc iha =>
    simp only [Expr.parts, List.length_cons, List.length_append]
    omega
  | operation _ _ _ _ ihl ihr =>
    simp only [Expr.parts, List.length_cons, List.length_append]
    omega
  | not _ _ ih | neg _ _ ih => exact Nat.succ_le_succ ih
  | member _ _ _ ih =>
    simp only [Expr.parts, List.length_cons, List.length_append, List.length_nil]
    omega
  | index _ _ _ _ iho ihk =>
    simp only [Expr.parts, List.length_cons, List.length_append, List.length_nil]
    omega
  | number | string | boolean | null | identifier => exact Nat.le_refl _
  | parens _ _ _ ih =>
    simp only [List.length_cons, List.length_append, List.length_nil]
    omega

theorem length_parts_le_of_parse {tokens : List Token} {e : Expr}
    (parsed : parse tokens = .ok e) :
    e.parts.length ≤ (beforeEnd tokens).length :=
  (derives_of_parse_eq_ok parsed).length_parts_le

/-- The tokens of a source but for the end marker are those in front of it. -/
theorem beforeEnd_of_tokenize {source : String} {limits : SourceLimits}
    {tokens : List Token} (scanned : tokenize source limits = .ok tokens) :
    beforeEnd tokens = tokens.dropLast := by
  obtain ⟨-, spans, lexed, -, rfl⟩ := tokenize_eq_ok_iff.1 scanned
  rw [beforeEnd_spans lexed, List.dropLast_concat]

/-- An expression has no more nodes than there are tokens in front of the first end
marker, and so no evaluation of a source with at most as many tokens as its ceiling
allows nodes is cut off. -/
theorem nodes_le_tokens :
    (∀ tokens e, parse tokens = .ok e → e.parts.length ≤ (beforeEnd tokens).length) ∧
    ∀ source limits tokens e, tokenize source limits = .ok tokens → parse tokens = .ok e →
      ∀ scope : Scope, tokens.dropLast.length ≤ scope.ceiling →
        ∀ limit, (scope.run e).1 ≠ .error (.eval (.tooDeep limit)) := by
  refine ⟨fun tokens e => length_parts_le_of_parse, ?_⟩
  intro source limits tokens e scanned parsed scope few limit
  have nodes := length_parts_le_of_parse parsed
  rw [beforeEnd_of_tokenize scanned] at nodes
  have room : e.height ≤ scope.ceiling :=
    Nat.le_trans e.height_le_length_parts (Nat.le_trans nodes few)
  show (Scope.run ⟨scope.world, scope.context, scope.ceiling⟩ e).1 ≠ _
  rw [Scope.run_eq_runFreely room]
  exact Scope.runFreely_ne_tooDeep limit

-- Three tokens stand for three nodes, and with one node less allowed the
-- evaluation would be cut off.
theorem nodes_le_tokens_negations :
    let expr : Expr := .unary .not (.unary .neg (.identifier "x"))
    let tokens : List Token :=
      [⟨.operator, "!", 0⟩, ⟨.operator, "-", 1⟩, ⟨.identifier, "x", 2⟩, .endAt 3]
    let scope : Nat → Scope := fun ceiling => {
      world := ⟨fun _ _ _ => none, fun _ => []⟩, context := { vars := [] }, ceiling }
    tokenize "!-x" = .ok tokens ∧ parse tokens = .ok expr ∧ expr.parts.length = 3 ∧
      expr.parts.length ≤ (beforeEnd tokens).length ∧
      (∀ limit, ((scope 3).run expr).1 ≠ .error (.eval (.tooDeep limit))) ∧
      ((scope 2).run expr).1 = .error (.eval (.tooDeep 2)) := by
  intro expr tokens scope
  have scanned : tokenize "!-x" = .ok tokens := by rfl
  have parsed : parse tokens = .ok expr := by
    have negations : Derives .unary maxNesting (beforeEnd tokens) expr :=
      .not rfl (.neg rfl (Derives.of_primary (.identifier rfl) _))
    exact parse_eq_ok_of_derives negations.loosest
  obtain ⟨nodes, spared⟩ := nodes_le_tokens
  exact ⟨scanned, parsed, rfl, nodes tokens expr parsed,
    spared "!-x" {} tokens expr scanned parsed (scope 3) (by decide), rfl⟩

end GuardedExpr
