import GuardedExpr.Proofs.Token.Pattern
import GuardedExpr.Proofs.Token.Reading

/-!
# Fragments of a source

A fragment is a text that may stand in a source: it holds nothing forbidden, and it reads
as certain tokens, up to their places. Two fragments make one where a bracket ends the
first or a closing bracket starts the second, as neither a lexeme nor a forbidden pattern
reaches over such a seam.
-/

namespace GuardedExpr

open Lexeme

/-- The text may stand in a source, where it reads as these tokens, up to their places. -/
structure Fragment (text : List Char) (tokens : List Token) : Prop where
  allowed : ∀ c ∈ text, isForbiddenChar c = false
  clean : Clean none text
  reads : ∃ spans, Lexed 0 text spans ∧ spans.map Span.content = tokens.map Token.content

namespace Fragment

variable {text glue more : List Char} {us vs ws : List Token}

theorem of_tokenize {source : String} (h : (tokenize source).map (List.map Token.content) =
      .ok (us.map Token.content ++ [(.endOfInput, "")])) : Fragment source.toList us := by
  cases scanned : tokenize source with
  | error fault =>
    rw [scanned] at h
    cases h
  | ok tokens =>
    obtain ⟨admissible, spans, lexed, -, rfl⟩ := tokenize_eq_ok_iff.1 scanned
    have contents := h
    rw [scanned, Except.map, Except.ok.injEq, List.map_append, List.map_map] at contents
    exact ⟨admissible.allowed, screen_eq_none_iff.1 admissible.screened, spans, lexed,
      List.append_cancel_right contents⟩

theorem append (h : Fragment text us) (h' : Fragment more vs)
    (seam : ∀ x ∈ text.getLast?, ∀ y ∈ more.head?, x ∈ ['(', ')', '[', ']'] ∨
      y ∈ [')', ']']) :
    Fragment (text ++ more) (us ++ vs) := by
  obtain ⟨spans, lexed, first⟩ := h.reads
  obtain ⟨others, lexed', second⟩ := h'.reads
  obtain ⟨moved, there, same⟩ := lexed'.moved (0 + text.length)
  have separated : Seam text more := fun x hx y hy => (seam x hx y hy).imp
    ((by decide : ∀ c ∈ ['(', ')', '[', ']'], isSeparator c = true) x)
    ((by decide : ∀ c ∈ [')', ']'], isSeparator c = true) y)
  refine ⟨List.forall_mem_append.2 ⟨h.allowed, h'.allowed⟩, h.clean.append h'.clean ?_, ?_⟩
  · exact fun x hx y hy => (seam x hx y hy).imp_left
      (fun bracket => (by decide : ['(', ')', '[', ']'] ⊆ marks) bracket)
  · refine ⟨spans ++ moved, lexed.append there separated, ?_⟩
    rw [List.map_append, List.map_append, first, same, second]

theorem append_of_last (h : Fragment text us) (h' : Fragment more vs)
    (last : ∀ x ∈ text.getLast?, x ∈ ['(', ')', '[', ']']) :
    Fragment (text ++ more) (us ++ vs) :=
  h.append h' fun x hx _ _ => .inl (last x hx)

theorem append_of_head (h : Fragment text us) (h' : Fragment more vs)
    (head : ∀ y ∈ more.head?, y ∈ [')', ']']) : Fragment (text ++ more) (us ++ vs) :=
  h.append h' fun _ _ y hy => .inr (head y hy)

/-- A fragment that closes something and opens something stands between any two. -/
theorem join (h : Fragment text us) (between : Fragment glue vs) (h' : Fragment more ws)
    (head : ∃ y ∈ glue.head?, y ∈ [')', ']'])
    (last : ∀ x ∈ glue.getLast?, x ∈ ['(', ')', '[', ']']) :
    Fragment (text ++ (glue ++ more)) (us ++ (vs ++ ws)) := by
  obtain ⟨y, hy, closing⟩ := head
  refine h.append_of_head (between.append_of_last h' last) fun z hz => ?_
  rw [List.head?_append, hy] at hz
  cases hz
  exact closing

/-- A point may stand in front of a fragment. -/
theorem point_cons (h : Fragment text us) :
    Fragment ('.' :: text) (⟨.dot, ".", 0⟩ :: us) := by
  obtain ⟨spans, lexed, read⟩ := h.reads
  obtain ⟨moved, there, same⟩ := lexed.moved 1
  have point : Clean none ['.'] := screen_eq_none_iff.1 (by rfl)
  refine ⟨List.forall_mem_cons.2 ⟨by decide, h.allowed⟩, point.append h.clean ?_, ?_⟩
  · rintro x ⟨⟩ - -
    exact .inl (by decide)
  · refine ⟨_, .cons (.mark rfl) there, ?_⟩
    rw [List.map_cons, List.map_cons, same, read]
    rfl

end Fragment

end GuardedExpr
