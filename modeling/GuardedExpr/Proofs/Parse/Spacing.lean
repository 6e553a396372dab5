import GuardedExpr.Proofs.Parse.Phrase
import GuardedExpr.Proofs.Parse.Source
import GuardedExpr.Proofs.Token.Spacing

/-!
# White space between the tokens of an expression

In a phrase no word stands directly behind a numeral. So the only white space that could
let a source hit a forbidden pattern cannot be put into a source that stands for an
expression, and white space between its tokens never changes what it stands for.
-/

namespace GuardedExpr

open Lexeme

variable {limits : SourceLimits} {category : Category} {room : Nat} {us vs : List Token}
  {e : Expr}

/-- Apart from a numeral and a word any token may stand between others. -/
theorem isChain_append_cons {token : Token}
    (other : token.kind ∉ [TokenKind.number, .boolean, .null, .identifier])
    (hus : us.IsChain Apart) (hvs : vs.IsChain Apart) :
    (us ++ token :: vs).IsChain Apart := by
  obtain ⟨hnumber, hword⟩ := not_or.1 (mt List.mem_cons.2 other)
  refine List.isChain_append.2 ⟨hus, hvs.cons fun later _ number =>
    absurd number hnumber, ?_⟩
  rintro last - next ⟨⟩ -
  exact hword

theorem isChain_append_operator {token : Token} {symbol : String}
    (h : token.isOperator symbol = true) (hus : us.IsChain Apart) (hvs : vs.IsChain Apart) :
    (us ++ token :: vs).IsChain Apart :=
  isChain_append_cons (by rw [Token.kind_of_isOperator h]; decide) hus hvs

/-- In a phrase no word stands directly behind a numeral. -/
theorem Derives.isChain_apart (h : Derives category room us e) : us.IsChain Apart := by
  induction h with
  | tighter _ _ ih => exact ih
  | choice hquestion hcolon _ _ _ iht ihc iha =>
    have branches := isChain_append_cons (by rw [hcolon]; decide) ihc iha
    exact isChain_append_operator hquestion iht branches
  | operation _ htoken _ _ ihl ihr => exact isChain_append_operator htoken ihl ihr
  | not htoken _ ih => exact isChain_append_operator htoken .nil ih
  | neg htoken _ ih => exact isChain_append_operator htoken .nil ih
  | member hdot _ _ ih => exact isChain_append_cons (by rw [hdot]; decide) ih (.singleton _)
  | index hleft hright _ _ ihe ihkey =>
    have key := isChain_append_cons (by rw [hright]; decide) ihkey .nil
    exact isChain_append_cons (by rw [hleft]; decide) ihe key
  | parens hleft hright _ ih =>
    have inner := isChain_append_cons (by rw [hright]; decide) ih .nil
    exact isChain_append_cons (by rw [hleft]; decide) .nil inner
  | _ => exact .singleton _

/-- White space that is put outside of the tokens does not change what
a source stands for. -/
theorem parseSource_spread {source : String} {spans : List Span} {added : Nat → List Char}
    (h : parseSource source limits = .ok e) (lexed : Lexed 0 source.toList spans)
    (blank : ∀ place, ∀ c ∈ added place, isBlank c = true ∧ isForbiddenChar c = false)
    (outside : ∀ span ∈ spans, ∀ place, span.start < place → place < span.stop →
      added place = [])
    (short : (spread added 0 source.toList).length ≤ limits.maxLength) :
    parseSource (String.ofList (spread added 0 source.toList)) limits = .ok e := by
  have white : Blank added := fun place c hc => (blank place c hc).1
  obtain ⟨admissible, others, lexed', few, derives⟩ := parseSource_eq_ok_iff.1 h
  rw [← lexed.unique lexed'] at derives
  obtain ⟨moved, there, same⟩ := lexed_spread lexed white outside 0
  have spaced : Spaced none source.toList (spread added 0 source.toList) :=
    spaced_of_lexed lexed white outside derives.isChain_apart fun _ none => nomatch none
  have clean := spaced.clean (screen_eq_none_iff.1 admissible.screened) (.inl rfl)
  refine parseSource_eq_ok_iff.2 ?_
  rw [String.toList_ofList]
  refine ⟨⟨short, ?_, screen_eq_none_iff.2 clean⟩, moved, there, ?_, ?_⟩
  · exact forall_mem_spread (fun place c hc => (blank place c hc).2) admissible.allowed
  · rwa [← List.length_map Span.content, same, List.length_map, ← List.length_map Span.token,
      lexed.unique lexed', List.length_map]
  · refine derives.of_contents ?_
    rw [List.map_map, List.map_map]
    exact same

-- A line break in front of the source, and white space in front of the second operand.
theorem parseSource_spread_sum :
    let sum : Expr := .binary .add (.identifier "a") (.identifier "b")
    let added : Nat → List Char := fun place =>
      if place = 0 then ['\n'] else if place = 2 then [' ', '\t'] else []
    parseSource "a+b" = .ok sum ∧ spread added 0 "a+b".toList = "\na+ \tb".toList ∧
      parseSource "\na+ \tb" = .ok sum := by
  intro sum added
  have parsed : parseSource "a+b" = .ok sum := by
    have scanned : tokenize "a+b" = .ok [⟨.identifier, "a", 0⟩, ⟨.operator, "+", 1⟩,
      ⟨.identifier, "b", 2⟩, Token.endAt 3] := by rfl
    rw [parseSource, scanned]
    have name {name place} :
        ∀ category, Derives category maxNesting [⟨.identifier, name, place⟩]
        (.identifier name) := Derives.of_primary (.identifier rfl)
    have additive : ("+", BinaryOp.add) ∈ Category.additive.operators := by decide
    have plus : (⟨.operator, "+", 1⟩ : Token).isOperator "+" = true := by rfl
    exact parse_eq_ok_of_derives (Derives.operation additive plus (name _) (name _)).loosest
  have first : Cut "a+b".toList (verbatim .identifier ['a'] ['+', 'b']) :=
    cut_of_lexeme? (by rfl)
  have second : Cut ['+', 'b'] (verbatim .operator ['+'] ['b']) := cut_of_lexeme? (by rfl)
  have third : Cut ['b'] (verbatim .identifier ['b'] []) := cut_of_lexeme? (by rfl)
  let spans : List Span := [⟨⟨.identifier, "a", 0⟩, 1⟩, ⟨⟨.operator, "+", 1⟩, 2⟩,
    ⟨⟨.identifier, "b", 2⟩, 3⟩]
  have lexed : Lexed 0 "a+b".toList spans :=
    .cons first (.cons second (.cons third (.done (List.forall_mem_nil _))))
  have one : ∀ span ∈ spans, span.stop = span.start + 1 := by decide
  have moved : spread added 0 "a+b".toList = "\na+ \tb".toList := by rfl
  have blank : ∀ place, ∀ c ∈ added place, isBlank c = true ∧ isForbiddenChar c = false := by
    intro place
    have texts : ∀ text ∈ [['\n'], [' ', '\t'], []], ∀ c ∈ text,
        isBlank c = true ∧ isForbiddenChar c = false := by decide
    refine texts (added place) ?_
    dsimp only [added]
    split
    · decide
    · split <;> decide
  have spaced := parseSource_spread parsed lexed blank (fun span member place low high => by
    have stop := one span member
    omega) (by rw [moved]; decide)
  rw [moved, String.ofList_toList] at spaced
  exact ⟨parsed, moved, spaced⟩

end GuardedExpr
