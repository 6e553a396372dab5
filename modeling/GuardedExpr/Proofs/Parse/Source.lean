import GuardedExpr.Proofs.Parse.Recognition
import GuardedExpr.Proofs.Token.Reading

/-!
# From a source to its expression

A source stands for an expression if it is admissible and reads as a phrase for it,
with not too many tokens.
-/

namespace GuardedExpr

variable {limits : SourceLimits} {source : String} {position : Nat} {text : List Char}
  {spans others : List Span} {us : List Token} {e e' : Expr}

theorem beforeEnd_append_endAt (h : ∀ token ∈ us, token.kind ≠ .endOfInput) (length : Nat) :
    beforeEnd (us ++ [Token.endAt length]) = us := by
  have inside : ∀ token ∈ us, (token.kind != .endOfInput) = true := fun token member =>
    bne_iff_ne.2 (h token member)
  rw [beforeEnd, List.takeWhile_append_of_pos inside, List.takeWhile_cons_of_neg,
    List.append_nil]
  exact Bool.false_ne_true

theorem beforeEnd_spans (h : Lexed position text spans) (length : Nat) :
    beforeEnd (spans.map Span.token ++ [Token.endAt length]) = spans.map Span.token :=
  beforeEnd_append_endAt (List.forall_mem_map.2 h.kind_ne_endOfInput) length

/-- A source stands for an expression if it is admissible and reads as a phrase for it. -/
theorem parseSource_eq_ok_iff :
    parseSource source limits = .ok e ↔ Admissible limits source.toList ∧
    ∃ spans, Lexed 0 source.toList spans ∧ spans.length ≤ limits.maxTokens ∧
      Derives .conditional maxNesting (spans.map Span.token) e := by
  rw [parseSource]
  constructor
  · intro h
    split at h
    case h_1 => cases h
    case h_2 tokens scanned =>
      obtain ⟨admissible, spans, lexed, few, rfl⟩ := tokenize_eq_ok_iff.1 scanned
      have derives := derives_of_parse_eq_ok h
      rw [beforeEnd_spans lexed] at derives
      exact ⟨admissible, spans, lexed, few, derives⟩
  · rintro ⟨admissible, spans, lexed, few, derives⟩
    rw [tokenize_eq_ok_iff.2 ⟨admissible, spans, lexed, few, rfl⟩]
    refine parse_eq_ok_of_derives ?_
    rwa [beforeEnd_spans lexed]

/-- What is read stands for one expression. -/
theorem Lexed.derives_unique (h : Lexed position text spans)
    (derives : Derives .conditional maxNesting (spans.map Span.token) e)
    (derives' : Derives .conditional maxNesting (spans.map Span.token) e') : e = e' := by
  rw [← beforeEnd_spans h 0] at derives derives'
  have same := parse_eq_ok_of_derives derives
  rw [parse_eq_ok_of_derives derives'] at same
  exact (Except.ok.inj same).symm

end GuardedExpr
