import GuardedExpr.Token.Lexeme

/-!
# The longest lexeme of a class

Numerals, words and operators as classes of texts that do not mention how a lexeme is cut.
What is cut from the front of a text is the longest text of its class that stands there.
-/

namespace GuardedExpr.Lexeme

/-- The longest text of a class that stands at the front of another. -/
structure Longest (Belongs : List Char → Prop) (part front : List Char) : Prop where
  belongs : Belongs part
  starts : part <+: front
  longest : ∀ other, Belongs other → other <+: front → other.length ≤ part.length

section

variable {p : Char → Bool} {run tail front : List Char}

/-- A run of characters and what stands behind it: either nothing does, or the run
goes as far as it can. -/
theorem run_of_append_isPrefix (hrun : ∀ c ∈ run, p c = true)
    (htail : ∀ c ∈ tail.head?, p c = false) (h : run ++ tail <+: front) :
    (tail = [] ∧ run.length ≤ (front.takeWhile p).length) ∨
      (run = front.takeWhile p ∧ tail <+: front.dropWhile p) := by
  induction run generalizing front with
  | nil =>
    cases tail with
    | nil => exact Or.inl ⟨rfl, Nat.zero_le _⟩
    | cons c tail =>
      obtain ⟨rest, rfl⟩ := h
      have stop : ¬ p c = true := by
        rw [htail c rfl]
        exact Bool.false_ne_true
      refine Or.inr ⟨(List.takeWhile_cons_of_neg stop).symm, ?_⟩
      rw [List.nil_append, List.cons_append, List.dropWhile_cons_of_neg stop]
      exact List.prefix_append (c :: tail) rest
  | cons c run ih =>
    obtain ⟨hc, hrest⟩ := List.forall_mem_cons.1 hrun
    cases front with
    | nil => cases List.prefix_nil.1 h
    | cons d front =>
      obtain ⟨rfl, further⟩ := List.cons_prefix_cons.1 h
      rw [List.takeWhile_cons_of_pos hc, List.dropWhile_cons_of_pos hc, List.length_cons,
        List.length_cons]
      rcases ih hrest further with ⟨none, short⟩ | ⟨whole, behind⟩
      · exact Or.inl ⟨none, Nat.succ_le_succ short⟩
      · exact Or.inr ⟨congrArg (c :: ·) whole, behind⟩

/-- A run of characters goes up to one that does not belong to it. -/
theorem takeWhile_run (hrun : ∀ c ∈ run, p c = true)
    (htail : ∀ c ∈ tail.head?, p c = false) :
    (run ++ tail).takeWhile p = run := by
  have stop : tail.takeWhile p = [] := by
    cases tail with
    | nil => rfl
    | cons c tail =>
      exact List.takeWhile_cons_of_neg (by rw [htail c rfl]; exact Bool.false_ne_true)
  rw [List.takeWhile_append_of_pos hrun, stop, List.append_nil]

theorem dropWhile_run (hrun : ∀ c ∈ run, p c = true)
    (htail : ∀ c ∈ tail.head?, p c = false) :
    (run ++ tail).dropWhile p = tail := by
  have stop : tail.dropWhile p = tail := by
    cases tail with
    | nil => rfl
    | cons c tail =>
      exact List.dropWhile_cons_of_neg (by rw [htail c rfl]; exact Bool.false_ne_true)
  rw [List.dropWhile_append_of_pos hrun, stop]

theorem length_le_takeWhile (hrun : ∀ c ∈ run, p c = true) (h : run <+: front) :
    run.length ≤ (front.takeWhile p).length := by
  have runs : run ++ [] <+: front := by rwa [List.append_nil]
  rcases run_of_append_isPrefix hrun (by simp) runs with ⟨-, short⟩ | ⟨whole, -⟩
  · exact short
  · exact Nat.le_of_eq (congrArg List.length whole)

end

/-! ## Numerals -/

def IsDigits (text : List Char) : Prop :=
  text ≠ [] ∧ ∀ c ∈ text, c.isDigit = true

/-- Nothing, or a point and digits. -/
inductive IsFraction : List Char → Prop
  | none : IsFraction []
  | some {digits : List Char} (h : IsDigits digits) : IsFraction ('.' :: digits)

inductive IsSign : List Char → Prop
  | none : IsSign []
  | plus : IsSign ['+']
  | minus : IsSign ['-']

/-- Nothing, or a mark, perhaps a sign, and digits. -/
inductive IsExponent : List Char → Prop
  | none : IsExponent []
  | some {mark : Char} {sign digits : List Char} (hmark : mark = 'e' ∨ mark = 'E')
      (hsign : IsSign sign) (h : IsDigits digits) : IsExponent (mark :: (sign ++ digits))

/-- Digits, perhaps a fraction, and perhaps an exponent. -/
def IsNumeral (text : List Char) : Prop :=
  ∃ whole part power, IsDigits whole ∧ IsFraction part ∧ IsExponent power ∧
    text = whole ++ part ++ power

theorem IsNumeral.ne_nil {text : List Char} (h : IsNumeral text) : text ≠ [] := by
  obtain ⟨whole, part, power, hwhole, -, -, rfl⟩ := h
  rw [List.append_assoc]
  exact List.append_ne_nil_of_left_ne_nil hwhole.1 _

theorem isDigits_takeWhile {text : List Char} (h : text.head?.any Char.isDigit = true) :
    IsDigits (text.takeWhile Char.isDigit) := by
  refine ⟨?_, List.all_eq_true.1 List.all_takeWhile⟩
  cases text with
  | nil => cases h
  | cons c rest =>
    rw [List.takeWhile_cons_of_pos (by exact h)]
    exact List.cons_ne_nil c _

/-- A text that digits start has a digit in front. -/
theorem IsDigits.any_head? {digits front : List Char} (h : IsDigits digits)
    (hstart : digits <+: front) :
    front.head?.any Char.isDigit = true := by
  obtain ⟨nonempty, all⟩ := h
  cases digits with
  | nil => exact absurd rfl nonempty
  | cons c digits =>
    obtain ⟨rest, rfl⟩ := hstart
    exact all c List.mem_cons_self

theorem isSign_sign (front : List Char) : IsSign (sign front) := by
  rw [sign.eq_def]
  split
  · exact .plus
  · exact .minus
  · exact .none

theorem sign_isPrefix (front : List Char) : sign front <+: front := by
  rw [sign.eq_def]
  split
  · exact List.prefix_append ['+'] _
  · exact List.prefix_append ['-'] _
  · exact List.nil_prefix

/-- A sign with digits behind it is the sign that is read. -/
theorem sign_eq_of_isPrefix {mark digits front : List Char} (hmark : IsSign mark)
    (h : IsDigits digits) (hstart : mark ++ digits <+: front) : sign front = mark := by
  cases hmark with
  | plus =>
    obtain ⟨rest, rfl⟩ := hstart
    rfl
  | minus =>
    obtain ⟨rest, rfl⟩ := hstart
    rfl
  | none =>
    have first := h.any_head? hstart
    rw [sign.eq_def]
    split
    · cases first
    · cases first
    · rfl

theorem isFraction_fraction (front : List Char) : IsFraction (fraction front) := by
  rw [fraction.eq_def]
  split
  case h_1 rest =>
    split
    case isTrue h => exact .some (isDigits_takeWhile h)
    case isFalse => exact .none
  case h_2 => exact .none

theorem fraction_isPrefix (front : List Char) : fraction front <+: front := by
  rw [fraction.eq_def]
  split
  case h_1 rest =>
    split
    · exact (List.prefix_cons_inj '.').2 (List.takeWhile_prefix _)
    · exact List.nil_prefix
  case h_2 => exact List.nil_prefix

theorem isExponent_exponent (front : List Char) : IsExponent (exponent front) := by
  cases front with
  | nil => exact .none
  | cons mark rest =>
    rw [exponent]
    split
    case isFalse => exact .none
    case isTrue h =>
      obtain ⟨hmark, hdigits⟩ := Bool.and_eq_true_iff.1 h
      rw [Bool.or_eq_true, beq_iff_eq, beq_iff_eq] at hmark
      exact .some hmark (isSign_sign rest) (isDigits_takeWhile hdigits)

theorem exponent_isPrefix (front : List Char) : exponent front <+: front := by
  cases front with
  | nil => exact List.nil_prefix
  | cons mark rest =>
    rw [exponent]
    split
    case isFalse => exact List.nil_prefix
    case isTrue =>
      have split : sign rest ++ rest.drop (sign rest).length = rest :=
        List.prefix_iff_eq_append.1 (sign_isPrefix rest)
      refine (List.prefix_cons_inj mark).2 ?_
      show sign rest ++ _ <+: rest
      conv => rhs; rw [← split]
      exact (List.prefix_append_right_inj _).2 (List.takeWhile_prefix _)

theorem length_le_exponent {power front : List Char} (h : IsExponent power)
    (hstart : power <+: front) :
    power.length ≤ (exponent front).length := by
  cases h with
  | none => exact Nat.zero_le _
  | @some mark mark' digits hmark hsign hdigits =>
    cases front with
    | nil => cases List.prefix_nil.1 hstart
    | cons c rest =>
      obtain ⟨rfl, behind⟩ := List.cons_prefix_cons.1 hstart
      have same : sign rest = mark' := sign_eq_of_isPrefix hsign hdigits behind
      have digitsStart : digits <+: rest.drop (sign rest).length := by
        rw [same]
        obtain ⟨tail, rfl⟩ := behind
        rw [List.append_assoc, List.drop_left]
        exact List.prefix_append digits tail
      have first := hdigits.any_head? digitsStart
      have marked : (mark == 'e' || mark == 'E') = true := by
        rw [Bool.or_eq_true, beq_iff_eq, beq_iff_eq]
        exact hmark
      have longer := length_le_takeWhile hdigits.2 digitsStart
      rw [exponent, if_pos (Bool.and_eq_true_iff.2 ⟨marked, first⟩), List.length_append,
        List.length_cons, List.length_cons, List.length_append, same]
      rw [same] at longer
      omega

theorem not_isDigit_head?_exponent {power : List Char} (h : IsExponent power) :
    ∀ c ∈ power.head?, c.isDigit = false := by
  intro c hc
  cases h with
  | none => cases hc
  | some hmark hsign hdigits =>
    cases hc
    rcases hmark with rfl | rfl <;> rfl

theorem not_isDigit_head?_append {part power : List Char} (hpart : IsFraction part)
    (hpower : IsExponent power) : ∀ c ∈ (part ++ power).head?, c.isDigit = false := by
  cases hpart with
  | none => exact not_isDigit_head?_exponent hpower
  | some h =>
    intro c hc
    cases hc
    rfl

theorem length_le_fraction {part power front : List Char} (hpart : IsFraction part)
    (hpower : IsExponent power) (h : part ++ power <+: front) :
    (part ++ power).length ≤
      (fraction front).length + (exponent (front.drop (fraction front).length)).length := by
  cases hpart with
  | none =>
    have alone := isFraction_fraction front
    generalize read : fraction front = digits at alone
    cases alone with
    | none => simpa using length_le_exponent hpower h
    | some hdigits =>
      -- With a point in front there is no exponent.
      have point : ∃ rest, front = '.' :: rest := by
        obtain ⟨rest, split⟩ := fraction_isPrefix front
        rw [read] at split
        exact ⟨_, split.symm⟩
      obtain ⟨rest, rfl⟩ := point
      cases hpower with
      | none => exact Nat.zero_le _
      | some hmark hsign hdigits =>
        have same := (List.cons_prefix_cons.1 h).1
        rcases hmark with rfl | rfl <;> cases same
  | @some digits hdigits =>
    cases front with
    | nil => cases List.prefix_nil.1 h
    | cons c rest =>
      obtain ⟨rfl, behind⟩ := List.cons_prefix_cons.1 h
      have first : rest.head?.any Char.isDigit = true :=
        hdigits.any_head? ((List.prefix_append digits power).trans behind)
      have read : fraction ('.' :: rest) = '.' :: rest.takeWhile Char.isDigit := if_pos first
      have left : ('.' :: rest).drop (fraction ('.' :: rest)).length =
          rest.dropWhile Char.isDigit := by
        rw [read, List.length_cons, List.drop_succ_cons]
        conv => lhs; arg 2; rw [← @List.takeWhile_append_dropWhile _ Char.isDigit rest]
        exact List.drop_left
      rw [left, read, List.cons_append, List.length_cons, List.length_cons,
        List.length_append]
      rcases run_of_append_isPrefix hdigits.2 (not_isDigit_head?_exponent hpower) behind with
        ⟨none, short⟩ | ⟨whole, further⟩
      · rw [none, List.length_nil]
        omega
      · have longer := length_le_exponent hpower further
        rw [← whole]
        omega

/-- The numeral at a digit is the longest one. -/
theorem longest_numeral {c : Char} {rest : List Char} (h : c.isDigit = true) :
    Longest IsNumeral (numeral (c :: rest)) (c :: rest) := by
  generalize front_eq : c :: rest = front
  have first : front.head?.any Char.isDigit = true := by
    rw [← front_eq]
    exact h
  have split : front.takeWhile Char.isDigit ++ front.dropWhile Char.isDigit = front :=
    List.takeWhile_append_dropWhile
  have splitFurther : fraction (front.dropWhile Char.isDigit) ++
      (front.dropWhile Char.isDigit).drop (fraction (front.dropWhile Char.isDigit)).length =
        front.dropWhile Char.isDigit :=
    List.prefix_iff_eq_append.1 (fraction_isPrefix _)
  rw [numeral]
  refine ⟨?_, ?_, ?_⟩
  · exact ⟨_, _, _, isDigits_takeWhile first, isFraction_fraction _,
      isExponent_exponent _, rfl⟩
  · conv => rhs; rw [← split, ← splitFurther, ← List.append_assoc]
    exact (List.prefix_append_right_inj _).2 (exponent_isPrefix _)
  · rintro other ⟨whole, part, power, hwhole, hpart, hpower, rfl⟩ starts
    rw [List.append_assoc] at starts
    simp only [List.length_append]
    have stop := not_isDigit_head?_append hpart hpower
    rcases run_of_append_isPrefix hwhole.2 stop starts with
      ⟨none, short⟩ | ⟨run, further⟩
    · obtain ⟨rfl, rfl⟩ := List.append_eq_nil_iff.1 none
      rw [List.length_nil]
      omega
    · have longer := length_le_fraction hpart hpower further
      rw [List.length_append] at longer
      rw [← run]
      omega

/-! ## Words -/

/-- A character that may start a word, and characters that may stand in one. -/
def IsWord (text : List Char) : Prop :=
  ∃ c rest, text = c :: rest ∧ isWordStart c = true ∧ ∀ d ∈ rest, isWordPart d = true

/-- A word is a keyword only as a whole. -/
def wordKind (word : List Char) : TokenKind :=
  if word = "true".toList ∨ word = "false".toList then .boolean
  else if word = "null".toList then .null
  else .identifier

theorem isWordPart_of_isWordStart {c : Char} (h : isWordStart c = true) :
    isWordPart c = true := by
  rw [isWordStart, Bool.or_eq_true, Bool.or_eq_true] at h
  rw [isWordPart, Bool.or_eq_true, Bool.or_eq_true, Char.isAlphanum, Bool.or_eq_true]
  exact h.imp_left (Or.imp_left Or.inl)

theorem longest_word {c : Char} {rest : List Char} (h : isWordStart c = true) :
    Longest IsWord ((c :: rest).takeWhile isWordPart) (c :: rest) := by
  refine ⟨?_, List.takeWhile_prefix _, ?_⟩
  · exact ⟨c, rest.takeWhile isWordPart,
      List.takeWhile_cons_of_pos (isWordPart_of_isWordStart h), h,
      List.all_eq_true.1 List.all_takeWhile⟩
  · rintro other ⟨d, word, rfl, hd, hword⟩ starts
    exact length_le_takeWhile
      (List.forall_mem_cons.2 ⟨isWordPart_of_isWordStart hd, hword⟩) starts

/-! ## Operators -/

def IsOperator (text : List Char) : Prop :=
  text ∈ longOperators ∨ ∃ c ∈ shortOperators, text = [c]

theorem length_of_mem_longOperators : ∀ symbol ∈ longOperators, 2 ≤ symbol.length := by
  decide

/-- A long operator stands in the list in front of those that it could be mistaken for. -/
theorem pairwise_longOperators :
    longOperators.Pairwise fun symbol later => later.length ≤ symbol.length := by
  decide

theorem longest_longOperator {symbol front : List Char}
    (h : longOperators.find? (·.isPrefixOf front) = some symbol) :
    Longest IsOperator symbol front := by
  obtain ⟨starts, before, behind, split, missed⟩ := List.find?_eq_some_iff_append.1 h
  have member : symbol ∈ longOperators := List.mem_of_find?_eq_some h
  refine ⟨Or.inl member, List.isPrefixOf_iff_prefix.1 starts, ?_⟩
  rintro other (long | ⟨c, -, rfl⟩) hother
  · have ordered := pairwise_longOperators
    rw [split] at long ordered
    rcases List.mem_append.1 long with earlier | here
    · have matched : other.isPrefixOf front = true := List.isPrefixOf_iff_prefix.2 hother
      have unmatched := missed other earlier
      rw [matched] at unmatched
      cases unmatched
    · rcases List.mem_cons.1 here with rfl | later
      · exact Nat.le_refl _
      · exact (List.pairwise_cons.1 (List.pairwise_append.1 ordered).2.1).1 other later
  · exact Nat.le_of_succ_le (length_of_mem_longOperators symbol member)

theorem longest_shortOperator {c : Char} {rest : List Char}
    (hlong : longOperators.find? (·.isPrefixOf (c :: rest)) = none)
    (h : c ∈ shortOperators) :
    Longest IsOperator [c] (c :: rest) := by
  refine ⟨Or.inr ⟨c, h, rfl⟩, List.prefix_append [c] rest, ?_⟩
  rintro other (long | ⟨d, -, rfl⟩) hother
  · have unmatched := List.find?_eq_none.1 hlong other long
    exact absurd (List.isPrefixOf_iff_prefix.2 hother) unmatched
  · exact Nat.le_refl _

end GuardedExpr.Lexeme
