import GuardedExpr.Proofs.Decimal.Writing
import GuardedExpr.Proofs.Expr.Hoisted
import GuardedExpr.Proofs.Parse.Names
import Mathlib.Data.Set.Function

/-!
# What is shown of two sources

What is shown of a source whose numbers are finite determines its expression, but for unary
operators in front of an access: those are shown in the same way whether they apply to the
access or to its object.
-/

namespace GuardedExpr

open Lexeme

/-! ## Literals -/

namespace Value

/-- A literal of a source, a number among them being finite. -/
inductive IsPlain : Value → Prop
  | null : IsPlain .null
  | bool (b : Bool) : IsPlain (.bool b)
  | text (s : String) : IsPlain (.text s)
  | number {x : Float} (finite : x.isFinite = true) (unsigned : signBit x = false) :
      IsPlain (.number x)

variable {v w : Value}

theorem IsPlain.cut_lexeme (h : v.IsPlain) : Cut v.lexeme.source v.lexeme := by
  cases h with
  | null => exact Value.cut_lexeme (.inl rfl) nofun
  | bool b => exact Value.cut_lexeme (.inr rfl) nofun
  | text s => exact Value.cut_lexeme (.inr rfl) nofun
  | number finite unsigned =>
    refine Value.cut_lexeme (.inr rfl) ?_
    rintro _ ⟨⟩
    obtain ⟨v, -, numeral, -⟩ := shows_write finite unsigned
    exact numeral

theorem lexeme_injOn : Set.InjOn lexeme {v | v.IsPlain} := by
  intro v h w h' same
  have kind := congrArg Lexeme.kind same
  have source := congrArg Lexeme.source same
  cases h with
  | null =>
    cases h' with
    | null => rfl
    | _ => cases kind
  | bool b =>
    cases h' with
    | bool b' =>
      revert source
      cases b <;> cases b' <;>
        first | exact fun _ => rfl | exact fun source => absurd source (by decide)
    | _ => cases kind
  | text s =>
    cases h' with
    | text s' =>
      have inner := List.append_cancel_right (List.cons.inj source).2
      rw [String.toList_inj.1 (Quoted.encode_injective inner)]
    | _ => cases kind
  | number finite unsigned =>
    cases h' with
    | number finite' unsigned' =>
      rw [write_injective finite finite' unsigned unsigned' (String.toList_inj.1 source)]
    | _ => cases kind

/-- A lexeme tells which literal it was. -/
theorem exists_meaning :
    ∃ meaning : Lexeme → Value, ∀ v : Value, v.IsPlain → meaning v.lexeme = v :=
  ⟨Function.invFunOn lexeme {v | v.IsPlain}, fun _ h => lexeme_injOn.leftInvOn_invFunOn h⟩

end Value

/-! ## The expression of a source -/

section

variable {source : String} {limits : SourceLimits} {e : Expr}

/-- A numeral is read as a number without a sign. -/
theorem signBit_of_isNumeral {text : List Char} {x : Float} (numeral : IsNumeral text)
    (read : readDouble? text = some x) : signBit x = false := by
  obtain ⟨whole, part, power, digits, -, -, rfl⟩ := numeral
  obtain ⟨c, further, rfl⟩ := List.exists_cons_of_ne_nil digits.1
  exact signBit_of_readDouble? (digits.2 c List.mem_cons_self) read

theorem isPlain_of_parseSource (parsed : parseSource source limits = .ok e)
    (finite : ∀ x, .literal (.number x) ∈ e.parts → x.isFinite = true) :
    e.AllLiterals Value.IsPlain := by
  obtain ⟨-, spans, lexed, -, derives⟩ := parseSource_eq_ok_iff.1 parsed
  intro v place
  obtain ⟨token, member, brings⟩ := derives.broughtBy _ place trivial
  cases brings with
  | number kind read =>
    obtain ⟨front, lexeme, cut, same, text⟩ := lexed.exists_cut token member
    have numeral := cut.isNumeral (same.trans kind)
    rw [text, String.toList_ofList] at read
    exact .number (finite _ place) (signBit_of_isNumeral numeral read)
  | string => exact .text _
  | boolean => exact .bool _
  | null => exact .null

theorem isIdentifier_of_parseSource (parsed : parseSource source limits = .ok e)
    {part : Expr} (place : part ∈ e.parts) {name : String}
    (named : part.name? = some name) : IsIdentifier name := by
  obtain ⟨-, spans, lexed, -, derives⟩ := parseSource_eq_ok_iff.1 parsed
  obtain ⟨token, member, kind, rfl⟩ := derives.namedBy part place name named
  obtain ⟨front, lexeme, cut, same, text⟩ := lexed.exists_cut token member
  rw [text]
  exact isIdentifier_of_cut cut (same.trans kind)

theorem legible_of_parseSource (parsed : parseSource source limits = .ok e)
    (finite : ∀ x, .literal (.number x) ∈ e.parts → x.isFinite = true) : e.Legible :=
  ⟨fun v place => (isPlain_of_parseSource parsed finite v place).cut_lexeme,
    fun _ place => isIdentifier_of_parseSource parsed place rfl,
    fun _ _ place => isIdentifier_of_parseSource parsed place rfl⟩

end

variable {source source' : String} {limits limits' : SourceLimits} {e e' : Expr}

/-- Expressions that are shown in one way have the same lexemes. -/
theorem Expr.Legible.lexemes_eq (h : e.Legible) (h' : e'.Legible)
    (same : e.display = e'.display) :
    e.lexemes = e'.lexemes := by
  have spelled := e.spelled_display h stops_nil spelled_nil
  have spelled' := e'.spelled_display h' stops_nil spelled_nil
  rw [List.append_nil, List.append_nil] at spelled spelled'
  rw [same] at spelled
  exact spelled.unique spelled'

/-- Two sources with finite numbers are shown in one way exactly if their expressions are
the same but for where unary operators stand in accesses. If no access of theirs is to a
unary operation, they are shown in one way only if they have one expression. -/
theorem display_eq_iff_of_parseSource (parsed : parseSource source limits = .ok e)
    (parsed' : parseSource source' limits' = .ok e')
    (finite : ∀ x, .literal (.number x) ∈ e.parts → x.isFinite = true)
    (finite' : ∀ x, .literal (.number x) ∈ e'.parts → x.isFinite = true) :
    (e.display = e'.display ↔ e.hoisted = e'.hoisted) ∧
      (e.NoUnaryObject → e'.NoUnaryObject → e.display = e'.display → e = e') := by
  obtain ⟨meaning, known⟩ := Value.exists_meaning
  have hoisted : e.display = e'.display → e.hoisted = e'.hoisted := by
    intro same
    have lexemes := (legible_of_parseSource parsed finite).lexemes_eq
      (legible_of_parseSource parsed' finite') same
    exact Expr.hoisted_eq_of_lexemes_eq
      (fun v place => known v (isPlain_of_parseSource parsed finite v place))
      (fun v place => known v (isPlain_of_parseSource parsed' finite' v place)) lexemes
  refine ⟨⟨hoisted, fun same => ?_⟩, fun plain plain' same => ?_⟩
  · rw [← e.display_hoisted, same, e'.display_hoisted]
  · rw [← Expr.hoisted_eq_self plain, hoisted same, Expr.hoisted_eq_self plain']

theorem display_eq_iff_of_parseSource_difference :
    let half : Expr := .literal (.number 2.5)
    let e : Expr := .binary .sub (.identifier "a") (.binary .mul half (.identifier "b"))
    let e' : Expr := .binary .mul (.binary .sub (.identifier "a") half) (.identifier "b")
    parseSource "a - 2.5 * b" = .ok e ∧ parseSource "(a - 2.5) * b" = .ok e' ∧
      e.display ≠ e'.display := by
  intro half e e'
  have minus : ("-", BinaryOp.sub) ∈ Category.additive.operators := by decide
  have star : ("*", BinaryOp.mul) ∈ Category.multiplicative.operators := by decide
  have read : readDouble? "2.5".toList = some 2.5 := by rfl
  have number {room} (place) :
      ∀ category, Derives category room [⟨.number, "2.5", place⟩] half :=
    Derives.of_primary (.number rfl read)
  have named {room} (name place) :
      ∀ category, Derives category room [⟨.identifier, name, place⟩] (.identifier name) :=
    Derives.of_primary (.identifier rfl)
  have parsed : parseSource "a - 2.5 * b" = .ok e := by
    have scanned : tokenize "a - 2.5 * b" = .ok [⟨.identifier, "a", 0⟩, ⟨.operator, "-", 2⟩,
      ⟨.number, "2.5", 4⟩, ⟨.operator, "*", 8⟩, ⟨.identifier, "b", 10⟩,
      Token.endAt 11] := by rfl
    have product : Derives .multiplicative maxNesting
        ([⟨.number, "2.5", 4⟩] ++ ⟨.operator, "*", 8⟩ :: [⟨.identifier, "b", 10⟩]) _ :=
      .operation star rfl (number 4 _) (named "b" 10 _)
    have difference : Derives .additive maxNesting
        ([⟨.identifier, "a", 0⟩] ++ ⟨.operator, "-", 2⟩ :: _) e :=
      .operation minus rfl (named "a" 0 _) product
    rw [parseSource, scanned]
    exact parse_eq_ok_of_derives difference.loosest
  have parsed' : parseSource "(a - 2.5) * b" = .ok e' := by
    have scanned : tokenize "(a - 2.5) * b" = .ok [⟨.leftParen, "(", 0⟩,
        ⟨.identifier, "a", 1⟩, ⟨.operator, "-", 3⟩, ⟨.number, "2.5", 5⟩,
        ⟨.rightParen, ")", 8⟩, ⟨.operator, "*", 10⟩, ⟨.identifier, "b", 12⟩,
        Token.endAt 13] := by rfl
    have difference : Derives .additive 63
        ([⟨.identifier, "a", 1⟩] ++ ⟨.operator, "-", 3⟩ :: [⟨.number, "2.5", 5⟩]) _ :=
      .operation minus rfl (named "a" 1 _) (number 5 _)
    have closed : Derives .primary maxNesting
        (⟨.leftParen, "(", 0⟩ :: (_ ++ [⟨.rightParen, ")", 8⟩])) _ :=
      .parens rfl rfl difference.loosest
    have product : Derives .multiplicative maxNesting
        (_ ++ ⟨.operator, "*", 10⟩ :: [⟨.identifier, "b", 12⟩]) e' :=
      .operation star rfl (closed.of_primary _) (named "b" 12 _)
    rw [parseSource, scanned]
    exact parse_eq_ok_of_derives product.loosest
  have finite : Float.isFinite 2.5 = true := by decide +kernel
  have shown :=
    (display_eq_iff_of_parseSource parsed parsed'
      (by simp [e, half, Expr.parts, finite]) (by simp [e', half, Expr.parts, finite])).1
  refine ⟨parsed, parsed', fun same => ?_⟩
  have operation := (Expr.binary.inj (shown.1 same)).1
  cases operation

/-- An access to a negation is shown like the negation of an access. -/
theorem display_eq_of_negated_object :
    let e : Expr := .member (.unary .neg (.identifier "x")) "y"
    let e' : Expr := .unary .neg (.member (.identifier "x") "y")
    parseSource "(-x).y" = .ok e ∧ parseSource "-x.y" = .ok e' ∧
      e.display = e'.display ∧ e ≠ e' := by
  intro e e'
  have scanned : tokenize "(-x).y" = .ok [⟨.leftParen, "(", 0⟩, ⟨.operator, "-", 1⟩,
    ⟨.identifier, "x", 2⟩, ⟨.rightParen, ")", 3⟩, ⟨.dot, ".", 4⟩, ⟨.identifier, "y", 5⟩,
    Token.endAt 6] := by rfl
  have scanned' : tokenize "-x.y" = .ok [⟨.operator, "-", 0⟩, ⟨.identifier, "x", 1⟩,
    ⟨.dot, ".", 2⟩, ⟨.identifier, "y", 3⟩, Token.endAt 4] := by rfl
  have named {room} (place) :
      ∀ category, Derives category room [⟨.identifier, "x", place⟩] (.identifier "x") :=
    Derives.of_primary (.identifier rfl)
  have negation : Derives .unary 63 (⟨.operator, "-", 1⟩ :: [⟨.identifier, "x", 2⟩]) _ :=
    .neg rfl (named 2 _)
  have closed : Derives .primary maxNesting
      (⟨.leftParen, "(", 0⟩ :: (_ ++ [⟨.rightParen, ")", 3⟩])) _ :=
    .parens rfl rfl negation.loosest
  have access :
      Derives .access maxNesting (_ ++ [⟨.dot, ".", 4⟩, ⟨.identifier, "y", 5⟩]) e :=
    .member rfl rfl (closed.of_primary _)
  have access' : Derives .access maxNesting
      ([⟨.identifier, "x", 1⟩] ++ [⟨.dot, ".", 2⟩, ⟨.identifier, "y", 3⟩])
        (.member (.identifier "x") "y") :=
    .member rfl rfl (named 1 _)
  have negation' : Derives .unary maxNesting (⟨.operator, "-", 0⟩ :: _) e' :=
    .neg rfl (.tighter (by decide) access')
  rw [parseSource, parseSource, scanned, scanned']
  exact ⟨parse_eq_ok_of_derives access.loosest, parse_eq_ok_of_derives negation'.loosest,
    by decide, by simp [e, e']⟩

end GuardedExpr
