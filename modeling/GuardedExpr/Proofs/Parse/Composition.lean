import GuardedExpr.Proofs.Expr.Ceiling
import GuardedExpr.Proofs.Parse.Phrase
import GuardedExpr.Proofs.Parse.Source
import GuardedExpr.Proofs.Token.Fragment
import Mathlib.Order.Lattice.Nat

/-!
# Sources made of sources

Sources in parentheses can be put together with the operators, accesses and the choice of
the language. What comes out stands for the expression that is put together in the same
way. It is refused only if it is too long, has too many tokens or nests too deep, as
neither a lexeme nor a forbidden pattern reaches over a parenthesis.
-/

namespace GuardedExpr

open Lexeme

/-- How deep the tokens have to nest to be a phrase for the expression. -/
noncomputable def nesting (us : List Token) (e : Expr) : Nat :=
  sInf {room | Derives .conditional room us e}

/-- A source for an expression keeps to the limits. -/
structure Fits (limits : SourceLimits) (source : String) (e : Expr) : Prop where
  short : source.length ≤ limits.maxLength
  few : ∀ spans, Lexed 0 source.toList spans → spans.length ≤ limits.maxTokens
  shallow : ∀ spans, Lexed 0 source.toList spans →
    nesting (spans.map Span.token) e ≤ maxNesting

/-- The source stands for the expression if it keeps to the limits, and else it does not. -/
def Denotes (limits : SourceLimits) (source : String) (e : Expr) : Prop :=
  parseSource source limits = .ok e ↔ Fits limits source e

/-- The text is a fragment that reads as a phrase for the expression. -/
def StandsFor (category : Category) (room : Nat) (text : List Char) (e : Expr) : Prop :=
  ∃ us, Fragment text us ∧ Derives category room us e

variable {limits : SourceLimits} {source : String} {category : Category} {room room' : Nat}
  {text text₁ text₂ text₃ : List Char} {e e₁ e₂ e₃ : Expr}

/-! ## Sources as fragments -/

theorem standsFor_of_parseSource (h : parseSource source limits = .ok e) :
    StandsFor .conditional maxNesting source.toList e := by
  obtain ⟨admissible, spans, lexed, -, derives⟩ := parseSource_eq_ok_iff.1 h
  refine ⟨spans.map Span.token, ⟨admissible.allowed, ?_, spans, lexed, ?_⟩, derives⟩
  · exact screen_eq_none_iff.1 admissible.screened
  · rw [List.map_map]
    rfl

theorem contents_of_lexed {us : List Token} (h : Fragment text us) {spans : List Span}
    (lexed : Lexed 0 text spans) :
    (spans.map Span.token).map Token.content = us.map Token.content := by
  obtain ⟨others, lexed', read⟩ := h.reads
  rw [lexed.unique lexed', List.map_map]
  exact read

/-- What stands for an expression, however deep it nests, only has to keep to the limits. -/
theorem denotes_of_standsFor (h : StandsFor .conditional room source.toList e) :
    Denotes limits source e := by
  obtain ⟨us, fragment, derives⟩ := h
  rw [Denotes, parseSource_eq_ok_iff]
  constructor
  · rintro ⟨admissible, spans, lexed, few, within⟩
    refine ⟨String.length_toList ▸ admissible.short, fun others lexed' => ?_,
      fun others lexed' => ?_⟩
    · rwa [← List.length_map Span.token, ← lexed.unique lexed', List.length_map]
    · rw [← lexed.unique lexed']
      exact Nat.sInf_le within
  · intro fits
    obtain ⟨spans, lexed, -⟩ := fragment.reads
    have here := derives.of_contents (contents_of_lexed fragment lexed)
    have least :=
      Nat.sInf_mem (s := {room | Derives .conditional room (spans.map Span.token) e})
      ⟨room, here⟩
    refine ⟨⟨?_, fragment.allowed, screen_eq_none_iff.2 fragment.clean⟩, spans, lexed,
      fits.few spans lexed, Derives.mono least (fits.shallow spans lexed)⟩
    rw [String.length_toList]
    exact fits.short

/-- A name that is accepted as an identifier reads as the name alone. -/
theorem fragment_of_identifier {name : String} (word : IsWord name.toList)
    (h : parseSource name limits = .ok (.identifier name)) :
    Fragment name.toList [⟨.identifier, name, 0⟩] := by
  obtain ⟨admissible, spans, lexed, -, derives⟩ := parseSource_eq_ok_iff.1 h
  have alone := lexed.of_isWord word
  rw [String.ofList_toList] at alone
  have kind : wordKind name.toList = .identifier := by
    have member := wordKind_mem name.toList
    generalize wordKind name.toList = kind at alone member
    rw [alone] at derives
    have literal :
        ∀ v, Derives .primary maxNesting [⟨kind, name, 0⟩] (.literal v) → False := by
      intro v other
      rw [← alone] at derives other
      cases lexed.derives_unique derives (other.of_primary .conditional)
    rw [List.mem_cons, List.mem_cons, List.mem_singleton] at member
    rcases member with rfl | rfl | rfl
    · exact (literal _ (.boolean rfl)).elim
    · exact (literal _ (.null rfl)).elim
    · rfl
  rw [kind] at alone
  refine ⟨admissible.allowed, screen_eq_none_iff.1 admissible.screened, spans, lexed, ?_⟩
  rw [← alone, List.map_map]
  rfl

/-! ## Putting fragments together -/

/-- Tokens at no place in particular. -/
def leftParen : Token :=
  ⟨.leftParen, "(", 0⟩

def rightParen : Token :=
  ⟨.rightParen, ")", 0⟩

def ofOperator (symbol : String) : Token :=
  ⟨.operator, symbol, 0⟩

theorem fragment_leftParen : Fragment "(".toList [leftParen] :=
  .of_tokenize (by rfl)

theorem fragment_rightParen : Fragment ")".toList [rightParen] :=
  .of_tokenize (by rfl)

theorem StandsFor.loosest (h : StandsFor category room text e) :
    StandsFor .conditional room text e := by
  obtain ⟨us, fragment, derives⟩ := h
  exact ⟨us, fragment, derives.loosest⟩

theorem StandsFor.parens (h : StandsFor .conditional room text e) :
    StandsFor .primary (room + 1) ("(".toList ++ (text ++ ")".toList)) e := by
  obtain ⟨us, fragment, derives⟩ := h
  have closed := fragment.append_of_head fragment_rightParen (by decide)
  exact ⟨_, fragment_leftParen.append_of_last closed (by decide), .parens rfl rfl derives⟩

theorem StandsFor.unary (h : StandsFor .conditional room text e) (op : UnaryOp) :
    StandsFor .unary (room + 1) ((op.symbol ++ "(").toList ++ (text ++ ")".toList))
      (.unary op e) := by
  obtain ⟨us, fragment, derives⟩ := h
  have opening : Fragment (op.symbol ++ "(").toList [ofOperator op.symbol, leftParen] :=
    .of_tokenize (by cases op <;> rfl)
  have closed := fragment.append_of_head fragment_rightParen (by decide)
  have inner : Derives .unary (room + 1) (leftParen :: (us ++ [rightParen])) e :=
    (Derives.parens rfl rfl derives).of_primary .unary
  refine ⟨_, opening.append_of_last closed (by cases op <;> decide), ?_⟩
  cases op with
  | not => exact .not rfl inner
  | neg => exact .neg rfl inner

theorem StandsFor.binary (h₁ : StandsFor .conditional room text₁ e₁)
    (h₂ : StandsFor .conditional room text₂ e₂) (op : BinaryOp) :
    StandsFor op.category (room + 1)
      ("(".toList ++ (text₁ ++ ((") " ++ op.symbol ++ " (").toList ++
      (text₂ ++ ")".toList)))) (.binary op e₁ e₂) := by
  obtain ⟨us, fragment₁, derives₁⟩ := h₁
  obtain ⟨vs, fragment₂, derives₂⟩ := h₂
  have between : Fragment (") " ++ op.symbol ++ " (").toList
      [rightParen, ofOperator op.symbol, leftParen] := .of_tokenize (by cases op <;> rfl)
  have closed := fragment₂.append_of_head fragment_rightParen (by decide)
  have joined :=
    fragment₁.join between closed (by cases op <;> decide) (by cases op <;> decide)
  have left : Derives op.category (room + 1) (leftParen :: (us ++ [rightParen])) e₁ :=
    (Derives.parens rfl rfl derives₁).of_primary op.category
  have right :
      Derives op.category.tighter (room + 1) (leftParen :: (vs ++ [rightParen])) e₂ :=
    (Derives.parens rfl rfl derives₂).of_primary op.category.tighter
  have member : (op.symbol, op) ∈ op.category.operators := by cases op <;> decide
  have symbol : (ofOperator op.symbol).isOperator op.symbol = true := by cases op <;> rfl
  have derives := Derives.operation member symbol left right
  refine ⟨_, fragment_leftParen.append_of_last joined (by decide), ?_⟩
  simpa using derives

def leftBracket : Token :=
  ⟨.leftBracket, "[", 0⟩

def rightBracket : Token :=
  ⟨.rightBracket, "]", 0⟩

theorem StandsFor.index (h₁ : StandsFor .conditional room text₁ e₁)
    (h₂ : StandsFor .conditional room text₂ e₂) :
    StandsFor .access (room + 1)
      ("(".toList ++ (text₁ ++ (")[".toList ++ (text₂ ++ "]".toList))))
      (.index e₁ e₂) := by
  obtain ⟨us, fragment₁, derives₁⟩ := h₁
  obtain ⟨vs, fragment₂, derives₂⟩ := h₂
  have between : Fragment ")[".toList [rightParen, leftBracket] := .of_tokenize (by rfl)
  have bracket : Fragment "]".toList [rightBracket] := .of_tokenize (by rfl)
  have closed := fragment₂.append_of_head bracket (by decide)
  have joined := fragment₁.join between closed (by decide) (by decide)
  have object : Derives .access (room + 1) (leftParen :: (us ++ [rightParen])) e₁ :=
    (Derives.parens rfl rfl derives₁).of_primary .access
  have derives : Derives .access (room + 1) ((leftParen :: (us ++ [rightParen])) ++
      leftBracket :: (vs ++ [rightBracket])) (.index e₁ e₂) := .index rfl rfl object derives₂
  refine ⟨_, fragment_leftParen.append_of_last joined (by decide), ?_⟩
  simpa using derives

theorem StandsFor.member {name : String} (h : StandsFor .conditional room text e)
    (fragment' : Fragment name.toList [⟨.identifier, name, 0⟩]) :
    StandsFor .access (room + 1) ("(".toList ++ (text ++ ")".toList) ++ '.' :: name.toList)
      (.member e name) := by
  obtain ⟨us, fragment, derives⟩ := h
  have closed := fragment.append_of_head fragment_rightParen (by decide)
  have object := fragment_leftParen.append_of_last closed (by decide)
  have last : ∀ x ∈ ("(".toList ++ (text ++ ")".toList)).getLast?,
      x ∈ ['(', ')', '[', ']'] := by
    intro x hx
    rw [List.getLast?_append, List.getLast?_append] at hx
    cases hx
    decide
  refine ⟨_, object.append_of_last fragment'.point_cons last, ?_⟩
  exact .member rfl rfl ((Derives.parens rfl rfl derives).of_primary .access)

def colon : Token :=
  ⟨.colon, ":", 0⟩

theorem StandsFor.choice (h₁ : StandsFor .conditional room text₁ e₁)
    (h₂ : StandsFor .conditional room text₂ e₂) (h₃ : StandsFor .conditional room text₃ e₃) :
    StandsFor .conditional (room + 2) ("(".toList ++ (text₁ ++ (") ? (".toList ++ (text₂ ++
      (") : (".toList ++ (text₃ ++ ")".toList)))))) (.conditional e₁ e₂ e₃) := by
  obtain ⟨us, fragment₁, derives₁⟩ := h₁
  obtain ⟨vs, fragment₂, derives₂⟩ := h₂
  obtain ⟨ws, fragment₃, derives₃⟩ := h₃
  have asks : Fragment ") ? (".toList [rightParen, ofOperator "?", leftParen] :=
    .of_tokenize (by rfl)
  have parts : Fragment ") : (".toList [rightParen, colon, leftParen] :=
    .of_tokenize (by rfl)
  have closed := fragment₃.append_of_head fragment_rightParen (by decide)
  have branches := fragment₂.join parts closed (by decide) (by decide)
  have joined := fragment₁.join asks branches (by decide) (by decide)
  have test : Derives .logicalOr (room + 2) (leftParen :: (us ++ [rightParen])) e₁ :=
    (Derives.parens rfl rfl (derives₁.mono (Nat.le_succ room))).of_primary .logicalOr
  have consequent : Derives .conditional (room + 1) (leftParen :: (vs ++ [rightParen])) e₂ :=
    (Derives.parens rfl rfl derives₂).of_primary .conditional
  have alternate : Derives .conditional (room + 1) (leftParen :: (ws ++ [rightParen])) e₃ :=
    (Derives.parens rfl rfl derives₃).of_primary .conditional
  have derives : Derives .conditional (room + 2) ((leftParen :: (us ++ [rightParen])) ++
      ofOperator "?" :: ((leftParen :: (vs ++ [rightParen])) ++ colon ::
        (leftParen :: (ws ++ [rightParen])))) (.conditional e₁ e₂ e₃) :=
    .choice rfl rfl test consequent alternate
  refine ⟨_, fragment_leftParen.append_of_last joined (by decide), ?_⟩
  simpa using derives

/-- Sources put together stand for the expression put together in the same way, within the
limits. In particular the negation of a source that has a value is the opposite of its
truth, unless the ceiling of the recursion cuts it off. -/
theorem parseSource_composes {s₁ s₂ s₃ name : String} (h₁ : parseSource s₁ limits = .ok e₁)
    (h₂ : parseSource s₂ limits = .ok e₂) (h₃ : parseSource s₃ limits = .ok e₃)
    (word : IsWord name.toList) (hname : parseSource name limits = .ok (.identifier name)) :
    Denotes limits ("(" ++ s₁ ++ ")") e₁ ∧
    (∀ op : UnaryOp, Denotes limits (op.symbol ++ "(" ++ s₁ ++ ")") (.unary op e₁)) ∧
    (∀ op : BinaryOp,
      Denotes limits ("(" ++ s₁ ++ ") " ++ op.symbol ++ " (" ++ s₂ ++ ")")
        (.binary op e₁ e₂)) ∧
    Denotes limits ("(" ++ s₁ ++ ")[" ++ s₂ ++ "]") (.index e₁ e₂) ∧
    Denotes limits ("(" ++ s₁ ++ ")." ++ name) (.member e₁ name) ∧
    Denotes limits ("(" ++ s₁ ++ ") ? (" ++ s₂ ++ ") : (" ++ s₃ ++ ")")
      (.conditional e₁ e₂ e₃) ∧
    ∀ (scope : Scope) (v : Value), (scope.run e₁).1 = .ok v →
      (scope.run (.unary .not e₁)).1 = .ok (.bool !v.truthy) ∨
        (scope.run (.unary .not e₁)).1 = .error (.eval (.tooDeep scope.ceiling)) := by
  have first := standsFor_of_parseSource h₁
  have second := standsFor_of_parseSource h₂
  have third := standsFor_of_parseSource h₃
  have identifier := fragment_of_identifier word hname
  refine ⟨?_, fun op => ?_, fun op => ?_, ?_, ?_, ?_, ?_⟩
  · exact denotes_of_standsFor (by simpa using first.parens.loosest)
  · exact denotes_of_standsFor (by simpa using (first.unary op).loosest)
  · exact denotes_of_standsFor (by simpa using (first.binary second op).loosest)
  · exact denotes_of_standsFor (by simpa using (first.index second).loosest)
  · exact denotes_of_standsFor (by simpa using (first.member identifier).loosest)
  · exact denotes_of_standsFor (by simpa using first.choice second third)
  · exact fun scope v value => scope.run_unary_of_run_eq_ok value .not

-- Without the parentheses the sum would take in only the first operand of the disjunction.
theorem parseSource_composes_disjunction :
    let either : Expr := .binary .or (.identifier "b") (.identifier "c")
    let sum : Expr := .binary .add (.identifier "a") either
    parseSource "a" = .ok (.identifier "a") ∧ parseSource "b || c" = .ok either ∧
      Denotes {} "(a) + (b || c)" sum ∧ Fits {} "(a) + (b || c)" sum ∧
      Denotes {} "(a) ? (b || c) : (a)"
        (.conditional (.identifier "a") either (.identifier "a")) ∧
      Denotes {} "(a).a" (.member (.identifier "a") "a") := by
  intro either sum
  have first : parseSource "a" = .ok (.identifier "a") := by rfl
  let nameAt : String → Nat → Token := fun name place => ⟨.identifier, name, place⟩
  have named {room} (name place) :
      ∀ category, Derives category room [nameAt name place] (.identifier name) :=
    Derives.of_primary (.identifier rfl)
  have disjunction {room} (p q r) :
      Derives .conditional room
        ([nameAt "b" p] ++ ⟨.operator, "||", q⟩ :: [nameAt "c" r]) either :=
    Derives.loosest
      (.operation (by decide : ("||", BinaryOp.or) ∈ Category.logicalOr.operators)
      (by rfl) (named "b" p _) (named "c" r _))
  have second : parseSource "b || c" = .ok either := by
    have scanned : tokenize "b || c" = .ok [nameAt "b" 0, ⟨.operator, "||", 2⟩, nameAt "c" 5,
      Token.endAt 6] := by rfl
    rw [parseSource, scanned]
    exact parse_eq_ok_of_derives (disjunction 0 2 5)
  have whole : parseSource "(a) + (b || c)" = .ok sum := by
    have scanned : tokenize "(a) + (b || c)" = .ok [⟨.leftParen, "(", 0⟩, nameAt "a" 1,
      ⟨.rightParen, ")", 2⟩, ⟨.operator, "+", 4⟩, ⟨.leftParen, "(", 6⟩, nameAt "b" 7,
      ⟨.operator, "||", 9⟩, nameAt "c" 12, ⟨.rightParen, ")", 13⟩, Token.endAt 14] := by rfl
    rw [parseSource, scanned]
    have left : Derives .additive maxNesting
        (⟨.leftParen, "(", 0⟩ :: ([nameAt "a" 1] ++ [⟨.rightParen, ")", 2⟩]))
        (.identifier "a") :=
      Derives.of_primary (.parens rfl rfl (named "a" 1 _)) _
    have right : Derives .multiplicative maxNesting (⟨.leftParen, "(", 6⟩ ::
        (([nameAt "b" 7] ++ ⟨.operator, "||", 9⟩ :: [nameAt "c" 12]) ++
          [⟨.rightParen, ")", 13⟩]))
        either :=
      Derives.of_primary (.parens rfl rfl (disjunction 7 9 12)) _
    have additive : ("+", BinaryOp.add) ∈ Category.additive.operators := by decide
    have plus : (⟨.operator, "+", 4⟩ : Token).isOperator "+" = true := by rfl
    exact parse_eq_ok_of_derives (Derives.operation additive plus left right).loosest
  have word : IsWord "a".toList := ⟨'a', [], rfl, by decide, by decide⟩
  obtain ⟨-, -, binary, -, member, choice, -⟩ :=
    parseSource_composes first second first word first
  exact ⟨first, second, binary .add, (binary .add).1 whole, choice, member⟩

end GuardedExpr
