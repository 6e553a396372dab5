import GuardedExpr.Proofs.Decimal.Reading
import GuardedExpr.Proofs.Parse.Leaves
import GuardedExpr.Proofs.Parse.Spacing

/-!
# Numerals of a source

A parser refuses a number only for a token that cannot be read as one, and a source has no
such token: what the lexer takes for a numeral, the reader of numbers takes too. The number
it reads is the one that the same characters coerce to as a text, and it is the next number
literal of the expression.
-/

namespace GuardedExpr

open Lexeme

/-! ## Who is blamed for a number -/

/-- If the fault is a number that cannot be read, it is in one of the tokens. -/
def Accuses (tokens : List Token) (fault : Fault) : Prop :=
  ∀ text position, fault = .parse (.invalidNumber text) position →
    ∃ token ∈ tokens, token.kind = .number ∧ token.text = text ∧ token.position = position ∧
      readDouble? text.toList = none

namespace Parse

/-- Among the tokens the parser reads tokens only, and it blames no other for a number. -/
def Fair {α : Type} (tokens : List Token) (p : ParseM α) : Prop :=
  ∀ start, start.rest ⊆ tokens →
    Outcome (fun _ stop => stop.rest ⊆ tokens) (Accuses tokens) (p start)

variable {tokens : List Token}

/-- The tokens to come only get fewer, and a fault that is about no number
blames no token for one. -/
theorem keptBySteps_fair : KeptBySteps (· ∈ tokens) (Fair tokens) where
  pure _ _ among := among
  bind first second start among :=
    (first start among).bind fun a stop inside => second a stop inside
  peek_bind h start among :=
    h start.next? (fun _ next => among (Cursor.mem_rest_of_next? next)) start among
  advance start among := List.Subset.trans start.rest_passed_subset among
  accept wanted start among := by
    rw [accept]
    split
    · exact List.Subset.trans start.rest_passed_subset among
    · exact among
  enter start among := by
    rw [enter]
    split
    · intro text position same
      cases same
    · exact among
  leave _ among := among
  number {token} member kind start among := by
    rw [number]
    cases read : readDouble? token.text.toList with
    | some x => exact among
    | none =>
      intro text position same
      cases same
      exact ⟨token, member, kind, rfl, rfl, read⟩
  fail other start among text position same := by
    cases same
    exact absurd rfl (other text)
  failAt position other start among text place same := by
    cases same
    exact absurd rfl (other text)

/-! ### Parsers -/

variable {sub : ParseM Expr}

/-- Whatever rounds a loop takes from the tokens to come, it takes them among the tokens. -/
theorem Fair.get_bind {α : Type} {f : Cursor → ParseM α}
    (h : ∀ cursor, Fair tokens (f cursor)) :
    Fair tokens (get >>= f) :=
  fun start among => h start start among

theorem fair_access (hsub : Fair tokens sub) : Fair tokens (access sub) :=
  keptBySteps_fair.bind (keptBySteps_fair.primary hsub) fun object =>
    .get_bind fun cursor => keptBySteps_fair.accesses hsub cursor.rest object

theorem unaryOps_snd_subset (tokens : List Token) : (unaryOps tokens).2 ⊆ tokens := by
  induction tokens with
  | nil => exact List.Subset.refl _
  | cons token rest ih =>
    rw [unaryOps]
    cases unaryOp? token with
    | none => exact List.Subset.refl _
    | some op => exact List.Subset.trans ih (List.subset_cons_self token rest)

theorem fair_unary (hsub : Fair tokens sub) : Fair tokens (unary sub) := by
  intro start among
  rw [unary, get_bind]
  have inside := List.Subset.trans (unaryOps_snd_subset start.rest) among
  have fair : Fair tokens (access sub >>= fun operand =>
      pure ((unaryOps start.rest).1.foldr Expr.unary operand)) :=
    keptBySteps_fair.bind (fair_access hsub) fun operand => keptBySteps_fair.pure _
  exact fair { start with rest := (unaryOps start.rest).2 } inside

theorem fair_binary (hsub : Fair tokens sub) (levels : List (List BinaryOp)) :
    Fair tokens (binary sub levels) := by
  induction levels with
  | nil => exact fair_unary hsub
  | cons level tighter ih =>
    exact keptBySteps_fair.bind ih fun first =>
      .get_bind fun cursor => keptBySteps_fair.operations ih cursor.rest first

theorem fair_conditional (activations : Nat) : Fair tokens (conditional activations) := by
  induction activations with
  | zero => exact keptBySteps_fair.fail (by simp)
  | succ activations ih => exact keptBySteps_fair.conditionalWith ih (fair_binary ih _)

end Parse

/-- A number is refused for a token only that cannot be read as one. -/
theorem accuses_of_parse {tokens : List Token} {fault : Fault}
    (failed : parse tokens = .error fault) :
    Accuses tokens fault := by
  -- The end marker that is added is no number.
  suffices completing : Accuses (completed tokens) fault by
    intro text position same
    obtain ⟨token, member, kind, rest⟩ := completing text position same
    exact ⟨token, mem_of_mem_completed member (by simp [kind]), kind, rest⟩
  have fair :=
    Parse.fair_conditional ((completed tokens).length + 1) (Cursor.ofTokens tokens)
      (List.Subset.refl _)
  rw [parse, parseWithin] at failed
  split at failed
  · intro text position same
    cases failed.trans (congrArg _ same)
  · split at failed
    case h_1 found run =>
      rw [run] at fair
      obtain rfl := Except.error.inj failed
      exact fair
    case h_2 =>
      split at failed
      · cases failed
      · intro text position same
        cases failed.trans (congrArg _ same)

/-! ## From numerals to literals -/

/-- The numbers among the literals, from left to right. -/
def Expr.numbers (expr : Expr) : List Float :=
  expr.parts.filterMap fun
    | .literal (.number x) => some x
    | _ => none

/-- The numerals among the tokens. -/
def numeralsOf (tokens : List Token) : List Token :=
  tokens.filter fun token => token.kind == .number

section

variable {us vs : List Token} {token : Token}

theorem numeralsOf_append (us vs : List Token) :
    numeralsOf (us ++ vs) = numeralsOf us ++ numeralsOf vs :=
  List.filter_append us vs

theorem numeralsOf_cons {kind : TokenKind} (h : token.kind = kind) (other : kind ≠ .number) :
    numeralsOf (token :: us) = numeralsOf us :=
  List.filter_cons_of_neg fun same => other (h.symm.trans (beq_iff_eq.1 same))

theorem numeralsOf_cons_operator {symbol : String} (h : token.isOperator symbol = true) :
    numeralsOf (token :: us) = numeralsOf us :=
  numeralsOf_cons (Token.kind_of_isOperator h) (by decide)

theorem Expr.numbers_eq (expr : Expr) (h : ∀ x, expr ≠ .literal (.number x)) :
    expr.numbers = expr.operands.flatMap numbers := by
  cases expr with
  | literal v =>
    cases v with
    | number x => exact absurd rfl (h x)
    | _ => rfl
  | _ => simp [numbers, parts, operands]

/-- The number literals of an expression are what the numerals of its phrase
are read as, one by one. -/
theorem Derives.forall₂_numbers {category : Category} {room : Nat} {e : Expr}
    (h : Derives category room us e) :
    List.Forall₂ (fun token x => readDouble? token.text.toList = some x)
      (numeralsOf us) e.numbers := by
  -- The operands come in the order of their parts of the phrase, and no token
  -- between these is a numeral.
  induction h with
  | tighter _ _ ih => exact ih
  | choice question colon _ _ _ iht ihc iha =>
    rw [numeralsOf_append, numeralsOf_cons_operator question, numeralsOf_append,
      numeralsOf_cons colon (by decide), Expr.numbers_eq _ (by simp)]
    simpa [Expr.operands] using List.rel_append iht (List.rel_append ihc iha)
  | operation _ symbol _ _ ihl ihr =>
    rw [numeralsOf_append, numeralsOf_cons_operator symbol, Expr.numbers_eq _ (by simp)]
    simpa [Expr.operands] using List.rel_append ihl ihr
  | not symbol _ ih | neg symbol _ ih =>
    rw [numeralsOf_cons_operator symbol, Expr.numbers_eq _ (by simp)]
    simpa [Expr.operands] using ih
  | member dot name _ ih =>
    rw [numeralsOf_append, numeralsOf_cons dot (by decide), numeralsOf_cons name (by decide),
      Expr.numbers_eq _ (by simp)]
    simpa [Expr.operands, numeralsOf] using ih
  | index left right _ _ iho ihk =>
    rw [numeralsOf_append, numeralsOf_cons left (by decide), numeralsOf_append,
      numeralsOf_cons right (by decide), Expr.numbers_eq _ (by simp)]
    simpa [Expr.operands, numeralsOf] using List.rel_append iho ihk
  | @number _ token x kind read =>
    have alone : numeralsOf [token] = [token] := List.filter_cons_of_pos (beq_iff_eq.2 kind)
    rw [alone]
    exact .cons read .nil
  | string kind | boolean kind | null kind | identifier kind =>
    rw [numeralsOf_cons kind (by decide), Expr.numbers_eq _ (by simp)]
    exact .nil
  | parens left right _ ih =>
    rw [numeralsOf_cons left (by decide), numeralsOf_append,
      numeralsOf_cons right (by decide)]
    simpa [numeralsOf] using ih

end

/-! ## What a numeral means -/

/-- The numeral is the number as a token and as a text, also with white space around it. -/
structure MeansNumber (numeral : String) (x : Float) : Prop where
  read : readDouble? numeral.toList = some x
  literal : ∀ position, parse [⟨.number, numeral, position⟩] = .ok (.literal (.number x))
  coerced : ∀ before after, (∀ c ∈ before, isBlank c = true) →
    (∀ c ∈ after, isBlank c = true) →
    (Value.text (String.ofList before ++ numeral ++ String.ofList after)).toNumber = x
  equal : ∀ before after, (∀ c ∈ before, isBlank c = true) →
    (∀ c ∈ after, isBlank c = true) →
    (Value.number x).looseEq
      (.text (String.ofList before ++ numeral ++ String.ofList after)) = true

theorem exists_meansNumber {numeral : String} (h : IsNumeral numeral.toList) :
    ∃ x, MeansNumber numeral x := by
  obtain ⟨x, read, number⟩ := exists_readDouble? h
  have self : (x == x) = true := by
    rw [Float.beq_self_iff]
    rintro rfl
    rw [Float.isNaN_eq_decide_eq_nan] at number
    exact of_decide_eq_false number rfl
  have coerced : ∀ before after, (∀ c ∈ before, isBlank c = true) →
      (∀ c ∈ after, isBlank c = true) →
      (Value.text (String.ofList before ++ numeral ++ String.ofList after)).toNumber = x :=
    fun before after => numberOfText_padded h read
  refine ⟨x, read, fun position => ?_, coerced, fun before after hbefore hafter => ?_⟩
  · have phrase : Derives .primary maxNesting [⟨.number, numeral, position⟩]
        (.literal (.number x)) :=
      .number rfl read
    exact parse_eq_ok_of_derives phrase.loosest
  · show (x == (Value.text _).toNumber) = true
    rw [coerced before after hbefore hafter, self]

/-! ## Sources -/

section

variable {source : String} {limits : SourceLimits} {tokens : List Token} {cause : ParseCause}
  {fault : Fault} {position : Nat}

/-- The lexer fails with no fault of parsing. -/
theorem scanFrom_ne_parse (text : List Char) (fuel room start : Nat) (rest : List Char) :
    scanFrom limits text fuel room start rest ≠ .error (.parse cause position) := by
  induction fuel generalizing room start rest with
  | zero => nofun
  | succ fuel ih =>
    intro failed
    rw [scanFrom] at failed
    split at failed
    case h_1 => cases failed
    case h_2 =>
      split at failed
      case h_1 => cases failed
      case h_2 =>
        split at failed
        case h_1 none _ =>
          cases none <;> cases failed
        case h_2 =>
          split at failed
          case h_1 further =>
            obtain rfl := Except.error.inj failed
            exact ih _ _ _ further
          case h_2 => cases failed

theorem tokenize_ne_parse : tokenize source limits ≠ .error (.parse cause position) := by
  intro failed
  rw [tokenize] at failed
  split at failed
  case h_1 checked =>
    obtain rfl := Except.error.inj failed
    rw [checkSource] at checked
    split at checked
    · cases checked
    · split at checked
      · cases checked
      · split at checked <;> cases checked
  case h_2 => exact scanFrom_ne_parse _ _ _ _ _ failed

theorem isNumeral_of_tokenize {token : Token}
    (scanned : tokenize source limits = .ok tokens) (member : token ∈ tokens)
    (kind : token.kind = .number) : IsNumeral token.text.toList := by
  obtain ⟨front, lexeme, cut, same, text⟩ :=
    exists_cut_of_tokenize scanned member (by rw [kind]; nofun)
  rw [text, String.toList_ofList]
  exact cut.isNumeral (same.trans kind)

/-- No source is refused for a number that cannot be read. -/
theorem parseSource_ne_invalidNumber (text : String) :
    parseSource source limits ≠ .error (.parse (.invalidNumber text) position) := by
  intro failed
  rw [parseSource] at failed
  split at failed
  case h_1 scanned =>
    obtain rfl := Except.error.inj failed
    exact tokenize_ne_parse scanned
  case h_2 tokens scanned =>
    obtain ⟨token, member, kind, rfl, -, unread⟩ := accuses_of_parse failed text position rfl
    obtain ⟨x, read, -⟩ := exists_readDouble? (isNumeral_of_tokenize scanned member kind)
    cases unread.symm.trans read

theorem numeralsOf_beforeEnd (scanned : tokenize source limits = .ok tokens) :
    numeralsOf (beforeEnd tokens) = numeralsOf tokens := by
  obtain ⟨-, spans, lexed, -, rfl⟩ := tokenize_eq_ok_iff.1 scanned
  have marker : numeralsOf [Token.endAt source.length] = [] := numeralsOf_cons rfl nofun
  rw [beforeEnd_spans lexed, numeralsOf_append, marker, List.append_nil]

theorem exists_meansNumber_of_tokenize {token : Token}
    (scanned : tokenize source limits = .ok tokens) (member : token ∈ numeralsOf tokens) :
    ∃ x, MeansNumber token.text x := by
  obtain ⟨inside, kind⟩ := List.mem_filter.1 member
  exact exists_meansNumber (isNumeral_of_tokenize scanned inside (beq_iff_eq.1 kind))

/-- The numerals of a source mean the number literals of its expression, one by one. -/
theorem forall₂_meansNumber {e : Expr} (scanned : tokenize source limits = .ok tokens)
    (parsed : parse tokens = .ok e) :
    List.Forall₂ (fun token x => MeansNumber token.text x)
      (numeralsOf tokens) e.numbers := by
  have read := (derives_of_parse_eq_ok parsed).forall₂_numbers
  rw [numeralsOf_beforeEnd scanned] at read
  have both := (List.forall₂_and_left _ _).2
    ⟨fun token member => exists_meansNumber_of_tokenize scanned member, read⟩
  refine both.imp ?_
  rintro token x ⟨⟨y, means⟩, read⟩
  obtain rfl : y = x := Option.some.inj (means.read.symm.trans read)
  exact means

end

/-- No source is refused for a number that cannot be read. Every numeral in it means one
number as a token and as a text, also with white space around it, and these numbers are the
number literals of its expression. -/
theorem numerals_mean_numbers (source : String) (limits : SourceLimits) :
    (∀ text position, parseSource source limits ≠
      .error (.parse (.invalidNumber text) position)) ∧
    ∀ tokens, tokenize source limits = .ok tokens →
      (∀ token ∈ numeralsOf tokens, ∃ x, MeansNumber token.text x) ∧
      ∀ e, parseSource source limits = .ok e →
        List.Forall₂ (fun token x => MeansNumber token.text x)
          (numeralsOf tokens) e.numbers := by
  refine ⟨fun text position => parseSource_ne_invalidNumber text, fun tokens scanned =>
    ⟨fun token member => exists_meansNumber_of_tokenize scanned member, fun e parsed => ?_⟩⟩
  rw [parseSource, scanned] at parsed
  exact forall₂_meansNumber scanned parsed

theorem numerals_mean_numbers_price :
    let e : Expr := .binary .mul (.literal (.number 125.0)) (.literal (.number 2.0))
    let tokens : List Token :=
      [⟨.number, "12.50e+1", 0⟩, ⟨.operator, "*", 9⟩, ⟨.number, "2", 11⟩, .endAt 12]
    tokenize "12.50e+1 * 2" = .ok tokens ∧ parseSource "12.50e+1 * 2" = .ok e ∧
      MeansNumber "12.50e+1" 125.0 ∧ MeansNumber "2" 2.0 ∧
      (Value.text "\t12.50e+1 ").toNumber = 125.0 := by
  intro e tokens
  have scanned : tokenize "12.50e+1 * 2" = .ok tokens := by rfl
  have price : readDouble? "12.50e+1".toList = some 125.0 := by rfl
  have factor : readDouble? "2".toList = some 2.0 := by rfl
  have star : ("*", BinaryOp.mul) ∈ Category.multiplicative.operators := by decide
  have product : Derives .multiplicative maxNesting
      ([⟨.number, "12.50e+1", 0⟩] ++ ⟨.operator, "*", 9⟩ :: [⟨.number, "2", 11⟩]) e :=
    .operation star rfl (Derives.of_primary (.number rfl price) _)
      (Derives.of_primary (.number rfl factor) _)
  have parsed : parseSource "12.50e+1 * 2" = .ok e := by
    rw [parseSource, scanned]
    exact parse_eq_ok_of_derives product.loosest
  cases ((numerals_mean_numbers _ _).2 _ scanned).2 _ parsed with
  | cons priced rest =>
    cases rest with
    | cons multiplied _ =>
      have tab : ∀ c ∈ ['\t'], isBlank c = true := List.forall_mem_singleton.2 rfl
      have space : ∀ c ∈ [' '], isBlank c = true := List.forall_mem_singleton.2 rfl
      exact ⟨scanned, parsed, priced, multiplied, priced.coerced ['\t'] [' '] tab space⟩

end GuardedExpr
