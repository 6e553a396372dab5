import GuardedExpr.Proofs.Expr.Parts
import GuardedExpr.Proofs.Parse.Grammar
import GuardedExpr.Proofs.Token.Reading

/-!
# What the tokens bring

Every literal and every name in an expression is brought by one of the tokens of its
phrase. What a token of a source may bring depends on the lexeme that it was cut as.
-/

namespace GuardedExpr

open Lexeme

/-- A literal or a variable is brought by its token, and a member by
the one of its property. -/
inductive Token.Brings (token : Token) : Expr → Prop
  | number {x : Float} (kind : token.kind = .number)
      (read : readDouble? token.text.toList = some x) :
      Brings token (.literal (.number x))
  | string (kind : token.kind = .string) : Brings token (.literal (.text token.text))
  | boolean (kind : token.kind = .boolean) :
      Brings token (.literal (.bool (token.text == "true")))
  | null (kind : token.kind = .null) : Brings token (.literal .null)
  | identifier (kind : token.kind = .identifier) : Brings token (.identifier token.text)
  | property {object : Expr} (kind : token.kind = .identifier) :
      Brings token (.member object token.text)

namespace Expr

/-- The expression has more to it than its operands and how they are put together. -/
def IsBrought : Expr → Prop
  | .literal _ => True
  | .identifier _ => True
  | .member _ _ => True
  | _ => False

/-- What the expression has of literals and names is brought by the tokens. -/
def BroughtBy (expr : Expr) (tokens : List Token) : Prop :=
  ∀ part ∈ expr.parts, part.IsBrought → ∃ token ∈ tokens, token.Brings part

variable {expr : Expr} {tokens more : List Token}

theorem BroughtBy.mono (h : expr.BroughtBy tokens) (among : tokens ⊆ more) :
    expr.BroughtBy more := by
  intro part place brought
  obtain ⟨token, member, brings⟩ := h part place brought
  exact ⟨token, among member, brings⟩

theorem BroughtBy.of_operands (own : expr.IsBrought → ∃ token ∈ tokens, token.Brings expr)
    (inside : ∀ operand ∈ expr.operands, operand.BroughtBy tokens) :
    expr.BroughtBy tokens := by
  intro part place brought
  rcases mem_parts_iff.1 place with rfl | ⟨operand, member, deeper⟩
  · exact own brought
  · exact inside operand member part deeper brought

theorem broughtBy_leaf {token : Token} (brings : token.Brings expr)
    (leaf : expr.operands = []) :
    expr.BroughtBy [token] := by
  refine .of_operands (fun _ => ⟨token, List.mem_singleton_self token, brings⟩) ?_
  rw [leaf]
  exact List.forall_mem_nil _

end Expr

section

variable {category : Category} {room : Nat} {us : List Token} {e : Expr}

/-- A phrase has no literals and no names but those of its tokens. -/
theorem Derives.broughtBy (h : Derives category room us e) : e.BroughtBy us := by
  induction h with
  | tighter _ _ ih => exact ih
  | choice _ _ _ _ _ iht ihc iha =>
    refine .of_operands False.elim ?_
    simp only [Expr.operands, List.forall_mem_cons]
    refine ⟨iht.mono (by simp), ihc.mono ?_, iha.mono ?_, List.forall_mem_nil _⟩
    · exact fun _ inside => by simp [inside]
    · exact fun _ inside => by simp [inside]
  | operation _ _ _ _ ihl ihr =>
    refine .of_operands False.elim ?_
    simp only [Expr.operands, List.forall_mem_cons]
    refine ⟨ihl.mono (by simp), ihr.mono ?_, List.forall_mem_nil _⟩
    exact fun _ inside => by simp [inside]
  | not _ _ ih =>
    refine .of_operands False.elim ?_
    simp only [Expr.operands, List.forall_mem_cons]
    exact ⟨ih.mono (List.subset_cons_self _ _), List.forall_mem_nil _⟩
  | neg _ _ ih =>
    refine .of_operands False.elim ?_
    simp only [Expr.operands, List.forall_mem_cons]
    exact ⟨ih.mono (List.subset_cons_self _ _), List.forall_mem_nil _⟩
  | member _ kind _ ih =>
    refine .of_operands (fun _ => ⟨_, by simp, .property kind⟩) ?_
    simp only [Expr.operands, List.forall_mem_cons]
    exact ⟨ih.mono (by simp), List.forall_mem_nil _⟩
  | index _ _ _ _ iho ihk =>
    refine .of_operands False.elim ?_
    simp only [Expr.operands, List.forall_mem_cons]
    refine ⟨iho.mono (by simp), ihk.mono ?_, List.forall_mem_nil _⟩
    exact fun _ inside => by simp [inside]
  | number kind read => exact Expr.broughtBy_leaf (.number kind read) rfl
  | string kind => exact Expr.broughtBy_leaf (.string kind) rfl
  | boolean kind => exact Expr.broughtBy_leaf (.boolean kind) rfl
  | null kind => exact Expr.broughtBy_leaf (.null kind) rfl
  | identifier kind => exact Expr.broughtBy_leaf (.identifier kind) rfl
  | parens _ _ _ ih => exact ih.mono fun _ inside => by simp [inside]

end

/-- Every token of a text is cut from it as a lexeme. -/
theorem Lexed.exists_cut {position : Nat} {text : List Char} {spans : List Span}
    (h : Lexed position text spans) : ∀ token ∈ spans.map Span.token, ∃ front lexeme,
      Cut front lexeme ∧ lexeme.kind = token.kind ∧
      token.text = String.ofList lexeme.text := by
  induction h with
  | done => exact nofun
  | next _ cut _ ih => exact List.forall_mem_cons.2 ⟨⟨_, _, cut, rfl, rfl⟩, ih⟩

/-- So is every token of a source but the marker of its end. -/
theorem exists_cut_of_tokenize {source : String} {limits : SourceLimits}
    {tokens : List Token} {token : Token} (scanned : tokenize source limits = .ok tokens)
    (member : token ∈ tokens) (inside : token.kind ≠ .endOfInput) : ∃ front lexeme,
      Cut front lexeme ∧ lexeme.kind = token.kind ∧
      token.text = String.ofList lexeme.text := by
  obtain ⟨-, spans, lexed, -, rfl⟩ := tokenize_eq_ok_iff.1 scanned
  rcases List.mem_append.1 member with there | ending
  · exact lexed.exists_cut token there
  · rw [List.mem_singleton.1 ending] at inside
    exact absurd rfl inside

end GuardedExpr
