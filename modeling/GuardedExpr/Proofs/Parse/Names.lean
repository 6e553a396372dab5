import GuardedExpr.Proofs.Expr.Faults
import GuardedExpr.Proofs.Parse.Leaves
import GuardedExpr.Proofs.Parse.Phrase
import GuardedExpr.Proofs.Parse.Source

/-!
# The names in an expression

A name in an expression is the text of an identifier among its tokens, so it is a word that
an expression may use. As every name in the expression of a source may be read, its
evaluation fails for a division or the ceiling only.
-/

namespace GuardedExpr

open Lexeme

/-- Word for word, the part stands in the text. -/
theorem occursIn_iff_infix {part text : List Char} (nonempty : part ≠ []) :
    occursIn part text = true ↔ part <:+: text := by
  induction text with
  | nil => simp [occursIn, nonempty]
  | cons c text ih =>
    rw [occursIn, Bool.or_eq_true, List.isPrefixOf_iff_prefix, ih, List.infix_cons_iff]

/-! ## From the expression to its tokens -/

namespace Expr

/-- The name that an expression itself brings, as a variable or for a member. -/
def name? : Expr → Option String
  | .identifier name => some name
  | .member _ property => some property
  | _ => none

/-- Every name in the expression is the text of an identifier among the tokens. -/
def NamedBy (expr : Expr) (tokens : List Token) : Prop :=
  ∀ part ∈ expr.parts, ∀ name, part.name? = some name →
    ∃ token ∈ tokens, token.kind = .identifier ∧ token.text = name

end Expr

/-- A phrase has no names but those of its tokens. -/
theorem Derives.namedBy {category : Category} {room : Nat} {us : List Token} {e : Expr}
    (h : Derives category room us e) : e.NamedBy us := by
  intro part place name named
  have brought : part.IsBrought := by
    cases part <;> trivial
  obtain ⟨token, member, brings⟩ := h.broughtBy part place brought
  refine ⟨token, member, ?_⟩
  cases brings with
  | identifier kind => exact ⟨kind, Option.some.inj named⟩
  | property kind => exact ⟨kind, Option.some.inj named⟩
  | _ => cases named

/-! ## From the tokens to the source -/

/-- The text is a safe key and mentions no script. -/
def IsUsableName (name : String) : Prop :=
  isSafeKey name = true ∧ ¬ "script".toList <:+: asciiLower name.toList

theorem isUsableName_of_cut {front : List Char} {lexeme : Lexeme} (h : Cut front lexeme)
    (kind : lexeme.kind = .identifier) : IsUsableName (String.ofList lexeme.text) := by
  obtain ⟨-, usable, word⟩ := h.isWord kind
  obtain ⟨safe, quiet⟩ := usable word
  refine ⟨safe, ?_⟩
  rw [← occursIn_iff_infix (by decide), Bool.not_eq_true]
  show mentionsScript (String.ofList lexeme.text).toList = false
  rwa [String.toList_ofList]

theorem Lexed.isUsableName {position : Nat} {text : List Char} {spans : List Span}
    (h : Lexed position text spans) :
    ∀ token ∈ spans.map Span.token, token.kind = .identifier → IsUsableName token.text := by
  intro token member kind
  obtain ⟨front, lexeme, cut, same, text⟩ := h.exists_cut token member
  rw [text]
  exact isUsableName_of_cut cut (same.trans kind)

/-- The names in the expression of a source are words that an expression may use. -/
theorem isUsableName_of_parseSource {source : String} {limits : SourceLimits}
    {expr part : Expr} {name : String} (h : parseSource source limits = .ok expr)
    (place : part ∈ expr.parts) (named : part.name? = some name) : IsUsableName name := by
  obtain ⟨-, spans, lexed, -, derives⟩ := parseSource_eq_ok_iff.1 h
  obtain ⟨token, member, kind, rfl⟩ := derives.namedBy part place name named
  exact lexed.isUsableName token member kind

/-! ## What its evaluation can fail with -/

theorem eq_of_raises {scope : Scope} {part : Expr} {place : EvalState} {fault : Fault}
    (safe : ∀ name, part.name? = some name → isSafeKey name = true)
    (h : scope.Raises part place fault) :
    fault = .eval .divisionByZero ∨ fault = .eval (.tooDeep scope.ceiling) := by
  cases h with
  | ceiling above => exact .inr rfl
  | zero room left right solid divisor => exact .inl rfl
  | forbidden room denied =>
    rw [safe _ rfl] at denied
    cases denied

/-- The expression of a source has safe names only, none of which mentions a script. In any
scope it has a value, or divides by zero, or is too deep. It divides by zero exactly if it
comes to a division of a value that is not void by one of the two zeros. -/
theorem run_of_parseSource {source : String} {limits : SourceLimits} {expr : Expr}
    (parsed : parseSource source limits = .ok expr) :
    (∀ name, (.identifier name ∈ expr.parts ∨ ∃ object, .member object name ∈ expr.parts) →
      isSafeKey name = true ∧ ¬ "script".toList <:+: asciiLower name.toList) ∧
    ∀ scope : Scope,
      ((∃ v, (scope.run expr).1 = .ok v) ∨
        (scope.run expr).1 = .error (.eval .divisionByZero) ∨
        (scope.run expr).1 = .error (.eval (.tooDeep scope.ceiling))) ∧
      ((scope.run expr).1 = .error (.eval .divisionByZero) ↔
        ∃ l r state v between w after, scope.ComesTo expr {} (.binary .div l r) state ∧
          state.depth < scope.ceiling ∧ scope.eval l state.deeper = (.ok v, between) ∧
          scope.eval r between = (.ok w, after) ∧ v.isVoid = false ∧
          (w = .number 0.0 ∨ w = .number (-0.0))) := by
  refine ⟨?_, fun scope => ⟨?_, ?_⟩⟩
  · rintro name (place | ⟨object, place⟩)
    · exact isUsableName_of_parseSource parsed place rfl
    · exact isUsableName_of_parseSource parsed place rfl
  · rcases result : (scope.run expr).1 with fault | v
    · obtain ⟨part, place, comes, raises⟩ := Scope.eval_eq_error_iff.1 result
      rcases eq_of_raises (fun name named =>
        (isUsableName_of_parseSource parsed comes.mem_parts named).1) raises with rfl | rfl
      · exact .inr (.inl rfl)
      · exact .inr (.inr rfl)
    · exact .inl ⟨v, rfl⟩
  · show (scope.eval expr {}).1 = _ ↔ _
    rw [Scope.eval_eq_error_iff]
    constructor
    · rintro ⟨part, place, comes, raises⟩
      cases raises with
      | zero room left right solid divisor =>
        exact ⟨_, _, _, _, _, _, _, comes, room, left, right, solid,
          Value.isNumberZero_iff.1 divisor⟩
    · rintro ⟨l, r, state, v, between, w, after, comes, room, left, right, solid, zero⟩
      exact ⟨_, _, comes, .zero room left right solid (Value.isNumberZero_iff.2 zero)⟩

theorem run_of_parseSource_quotient :
    let expr : Expr := .binary .div (.identifier "n") (.identifier "d")
    let scope : Scope := {
      world := ⟨fun _ _ _ => none, fun _ => []⟩
      context := { vars := [("n", .number 1.0), ("d", .number (-0.0))] } }
    parseSource "n / d" = .ok expr ∧ isSafeKey "d" = true ∧
      (scope.run expr).1 = .error (.eval .divisionByZero) := by
  intro expr scope
  have parsed : parseSource "n / d" = .ok expr := by
    have scanned : tokenize "n / d" = .ok [⟨.identifier, "n", 0⟩, ⟨.operator, "/", 2⟩,
      ⟨.identifier, "d", 4⟩, Token.endAt 5] := by rfl
    have slash : ("/", BinaryOp.div) ∈ Category.multiplicative.operators := by decide
    have quotient : Derives .multiplicative maxNesting
        ([⟨.identifier, "n", 0⟩] ++ ⟨.operator, "/", 2⟩ :: [⟨.identifier, "d", 4⟩]) expr :=
      .operation slash rfl (Derives.of_primary (.identifier rfl) _)
        (Derives.of_primary (.identifier rfl) _)
    rw [parseSource, scanned]
    exact parse_eq_ok_of_derives quotient.loosest
  obtain ⟨names, runs⟩ := run_of_parseSource parsed
  have numerator :
      scope.eval (.identifier "n") ⟨1, []⟩ = (.ok (.number 1.0), ⟨1, []⟩) := by rfl
  have divisor :
      scope.eval (.identifier "d") ⟨1, []⟩ = (.ok (.number (-0.0)), ⟨1, []⟩) := by rfl
  refine ⟨parsed, (names "d" (.inl (by simp [expr, Expr.parts]))).1, (runs scope).2.2 ?_⟩
  exact ⟨_, _, {}, _, _, _, _, .self,
    by decide, numerator, divisor, by decide +kernel, .inr rfl⟩

end GuardedExpr
