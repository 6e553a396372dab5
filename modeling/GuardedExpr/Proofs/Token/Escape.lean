import GuardedExpr.Token.Lexeme

/-!
# Escapes in strings

A character behind an odd number of backslashes is escaped. A string ends at the next quote
of its kind that is not escaped, and between its quotes each backslash makes a pair with
the character behind it.
-/

namespace GuardedExpr.Lexeme

/-- How many backslashes a text ends with. -/
def backslashes (text : List Char) : Nat :=
  (text.reverse.takeWhile (· == '\\')).length

/-- Whether the backslashes in front of a place escape what stands there. -/
def IsEscaped (text : List Char) (place : Nat) : Prop :=
  backslashes (text.take place) % 2 = 1

instance (text : List Char) (place : Nat) : Decidable (IsEscaped text place) :=
  inferInstanceAs (Decidable (backslashes (text.take place) % 2 = 1))

/-- What a text between quotes means: each backslash and the character behind
it are one character. -/
def unescaped : List Char → List Char
  | [] => []
  | ['\\'] => ['\\']
  | '\\' :: c :: rest => unescape c :: unescaped rest
  | c :: rest => c :: unescaped rest

theorem unescaped_cons {c : Char} (h : c ≠ '\\') (rest : List Char) :
    unescaped (c :: rest) = c :: unescaped rest := by
  rw [unescaped]
  · exact fun same _ => h same
  · exact fun _ _ same _ => h same

/-- A text that may stand between two quotes: no quote of their kind and no backslash but
in pairs of a backslash and any character. -/
inductive Enclosed (quote : Char) : List Char → Prop
  | nil : Enclosed quote []
  | plain {c : Char} {rest : List Char} (hc : c ≠ '\\') (hquote : c ≠ quote)
      (h : Enclosed quote rest) : Enclosed quote (c :: rest)
  | pair {c : Char} {rest : List Char} (h : Enclosed quote rest) :
      Enclosed quote ('\\' :: c :: rest)

/-- The backslashes at the end go on in front of a text only if the text has nothing else. -/
theorem backslashes_append (before text : List Char) :
    backslashes (before ++ text) =
      if backslashes text = text.length then text.length + backslashes before
      else backslashes text := by
  rw [backslashes, List.reverse_append, List.takeWhile_append, List.length_reverse]
  show (if backslashes text = text.length then _ else _ : List Char).length = _
  split
  · rw [List.length_append, List.length_reverse, backslashes]
  · rfl

/-- An even number of backslashes in front does not change what is escaped. -/
theorem backslashes_append_mod {before : List Char} (h : backslashes before % 2 = 0)
    (text : List Char) : backslashes (before ++ text) % 2 = backslashes text % 2 := by
  rw [backslashes_append]
  split
  · omega
  · rfl

theorem isEscaped_append {before : List Char} (h : backslashes before % 2 = 0)
    (text : List Char) (place : Nat) :
    IsEscaped (before ++ text) (before.length + place) ↔ IsEscaped text place := by
  rw [IsEscaped, IsEscaped, List.take_length_add_append, backslashes_append_mod h]

theorem backslashes_singleton {c : Char} (h : c ≠ '\\') : backslashes [c] % 2 = 0 := by
  rw [backslashes, List.reverse_singleton, List.takeWhile_cons_of_neg]
  · rfl
  · exact fun same => h (beq_iff_eq.1 same)

theorem backslashes_pair (c : Char) : backslashes ['\\', c] % 2 = 0 := by
  by_cases same : c = '\\'
  · subst same
    decide
  · have stop : [c, '\\'].takeWhile (· == '\\') = [] :=
      List.takeWhile_cons_of_neg fun equal => same (beq_iff_eq.1 equal)
    show ([c, '\\'].takeWhile (· == '\\')).length % 2 = 0
    rw [stop]
    rfl

/-- The quote behind an enclosed text is not escaped. -/
theorem Enclosed.not_isEscaped_length {quote : Char} {inner : List Char}
    (h : Enclosed quote inner) :
    ¬ IsEscaped inner inner.length := by
  induction h with
  | nil => decide
  | @plain c rest hc hquote h ih =>
    rw [List.length_cons, Nat.add_comm]
    exact fun escaped =>
      ih ((isEscaped_append (backslashes_singleton hc) rest rest.length).1 escaped)
  | @pair c rest h ih =>
    rw [List.length_cons, List.length_cons, Nat.add_assoc, Nat.add_comm]
    exact fun escaped =>
      ih ((isEscaped_append (backslashes_pair c) rest rest.length).1 escaped)

/-- Every quote in an enclosed text is escaped. -/
theorem Enclosed.isEscaped {quote : Char} {inner : List Char} (h : Enclosed quote inner)
    (hquote : quote ≠ '\\') :
    ∀ place, inner[place]? = some quote → IsEscaped inner place := by
  induction h with
  | nil =>
    intro place here
    cases here
  | @plain c rest hc hother h ih =>
    intro place here
    cases place with
    | zero => exact absurd (Option.some.inj here) hother
    | succ place =>
      rw [Nat.add_comm]
      exact (isEscaped_append (backslashes_singleton hc) rest place).2 (ih place here)
  | @pair c rest h ih =>
    intro place here
    match place with
    | 0 => exact absurd (Option.some.inj here).symm hquote
    | 1 => exact (by decide : backslashes ['\\'] % 2 = 1)
    | place + 2 =>
      rw [Nat.add_comm]
      exact (isEscaped_append (backslashes_pair c) rest place).2 (ih place here)

/-- What is cut as the rest of a string is an enclosed text and the quote behind it. -/
theorem closeString?_eq_some {quote : Char} {front : List Char} {tail : Lexeme}
    (h : closeString? quote front = some tail) :
    ∃ inner, Enclosed quote inner ∧ tail.kind = .string ∧ tail.text = unescaped inner ∧
      tail.source = inner ++ [quote] ∧ front = tail.source ++ tail.rest := by
  fun_induction closeString? quote front generalizing tail with
  | case1 => cases h
  | case2 => cases h
  | case3 c rest ih =>
    obtain ⟨further, closed, rfl⟩ := Option.map_eq_some_iff.1 h
    obtain ⟨inner, enclosed, -, text, source, split⟩ := ih closed
    refine ⟨'\\' :: c :: inner, .pair enclosed, rfl, ?_, ?_, ?_⟩
    · rw [text, unescaped]
    · rw [source]
      rfl
    · rw [split]
      rfl
  | case4 c rest _ _ isQuote =>
    cases h
    rw [beq_iff_eq] at isQuote
    exact ⟨[], .nil, rfl, rfl, congrArg (fun d => [d]) isQuote, rfl⟩
  | case5 c rest notLone notPair notQuote ih =>
    obtain ⟨further, closed, rfl⟩ := Option.map_eq_some_iff.1 h
    obtain ⟨inner, enclosed, -, text, source, split⟩ := ih closed
    have plain : c ≠ '\\' := by
      rintro rfl
      cases rest with
      | nil => exact notLone rfl rfl
      | cons d rest => exact notPair d rest rfl rfl
    refine ⟨c :: inner, .plain plain ?_ enclosed, rfl, ?_, ?_, ?_⟩
    · rintro rfl
      exact notQuote (beq_self_eq_true c)
    · rw [text, unescaped_cons plain]
    · rw [source]
      rfl
    · rw [split]
      rfl

end GuardedExpr.Lexeme
