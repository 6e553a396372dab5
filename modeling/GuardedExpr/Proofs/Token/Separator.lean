import GuardedExpr.Proofs.Token.Longest
import GuardedExpr.Token.Scan

/-!
# Separators

White space, parentheses, brackets and the colon stand in no numeral, word or
operator. So none of these reaches over a separator, and what is behind one does not
matter to a lexeme in front of it.
-/

namespace GuardedExpr

open Lexeme

section

variable {p : Char → Prop} [DecidablePred p]

-- A quantifier over the characters of a text is decided by running through the text. Left
-- to itself the search for an instance may run through all characters there are.

instance decidableForallText (text : List Char) : Decidable (∀ c ∈ text, p c) :=
  List.decidableBAll p text

instance decidableForallFirst (first : Option Char) : Decidable (∀ c ∈ first, p c) :=
  Option.decidableForallMem first

instance decidableExistsFirst (first : Option Char) : Decidable (∃ c ∈ first, p c) :=
  Option.decidableExistsMem first

end

/-- Whether the character stands in no numeral, word or operator. The point does not count,
as it stands in numerals. -/
def isSeparator (c : Char) : Bool :=
  isBlank c || ['(', ')', '[', ']', ':'].contains c

/-- A text without separators. -/
def Solid (text : List Char) : Prop :=
  ∀ c ∈ text, isSeparator c = false

/-! ## Characters -/

/-- Visible characters of ASCII are not white space. -/
theorem isBlank_eq_false {c : Char} (hlow : 0x20 < c.toNat) (hhigh : c.toNat < 0x7F) :
    isBlank c = false := by
  rw [isBlank, CharSet.contains]
  simp [blanks, CharSet.covers_cons]
  omega

theorem isForbiddenChar_eq_false {c : Char} (hlow : 0x1F < c.toNat)
    (hhigh : c.toNat < 0x7F) :
    isForbiddenChar c = false := by
  simp [isForbiddenChar]
  omega

theorem toNat_of_isUpper {c : Char} (h : c.isUpper = true) :
    0x41 ≤ c.toNat ∧ c.toNat ≤ 0x5A :=
  of_decide_eq_true h

theorem toNat_of_isLower {c : Char} (h : c.isLower = true) :
    0x61 ≤ c.toNat ∧ c.toNat ≤ 0x7A :=
  (Bool.and_eq_true_iff.1 h).imp of_decide_eq_true of_decide_eq_true

theorem toNat_of_isAlpha {c : Char} (h : c.isAlpha = true) :
    (0x41 ≤ c.toNat ∧ c.toNat ≤ 0x5A) ∨ (0x61 ≤ c.toNat ∧ c.toNat ≤ 0x7A) :=
  (Bool.or_eq_true_iff.1 h).imp toNat_of_isUpper toNat_of_isLower

theorem toNat_of_isDigit {c : Char} (h : c.isDigit = true) :
    0x30 ≤ c.toNat ∧ c.toNat ≤ 0x39 :=
  Char.isDigit_iff_toNat.1 h

theorem toNat_of_isWordPart {c : Char} (h : isWordPart c = true) :
    0x20 < c.toNat ∧ c.toNat < 0x7F := by
  rw [isWordPart, Char.isAlphanum, Bool.or_eq_true, Bool.or_eq_true, Bool.or_eq_true,
    beq_iff_eq, beq_iff_eq] at h
  rcases h with ((letter | digit) | rfl) | rfl
  · have := toNat_of_isAlpha letter
    omega
  · have := toNat_of_isDigit digit
    omega
  · decide
  · decide

theorem isSeparator_of_isBlank {c : Char} (h : isBlank c = true) : isSeparator c = true := by
  rw [isSeparator, h, Bool.true_or]

theorem isSeparator_of_isWordPart {c : Char} (h : isWordPart c = true) :
    isSeparator c = false := by
  obtain ⟨hlow, hhigh⟩ := toNat_of_isWordPart h
  have marks : ∀ mark ∈ ['(', ')', '[', ']', ':'], isWordPart mark = false := by decide
  rw [isSeparator, isBlank_eq_false hlow hhigh, Bool.false_or, ← Bool.not_eq_true,
    List.contains_iff_mem]
  intro member
  rw [marks c member] at h
  cases h

theorem isWordPart_of_isDigit {c : Char} (h : c.isDigit = true) : isWordPart c = true := by
  rw [isWordPart, Char.isAlphanum, h, Bool.or_true, Bool.true_or, Bool.true_or]

theorem Solid.isBlank_head? {text : List Char} (h : Solid text) :
    ∀ c ∈ text.head?, isBlank c = false := by
  intro c hc
  rw [← Bool.not_eq_true]
  intro blank
  have solid := h c (List.mem_of_mem_head? hc)
  rw [isSeparator_of_isBlank blank] at solid
  cases solid

/-! ## White space in front -/

theorem takeWhile_isBlank {gap front : List Char} (hgap : ∀ c ∈ gap, isBlank c = true)
    (hfront : ∀ c ∈ front.head?, isBlank c = false) :
    (gap ++ front).takeWhile isBlank = gap :=
  takeWhile_run hgap hfront

theorem dropWhile_isBlank {gap front : List Char} (hgap : ∀ c ∈ gap, isBlank c = true)
    (hfront : ∀ c ∈ front.head?, isBlank c = false) :
    (gap ++ front).dropWhile isBlank = front :=
  dropWhile_run hgap hfront

/-! ## Seams -/

section

variable {other text more : List Char}

/-- A text that starts where two others meet ends in the first, unless it
may reach over the seam. -/
theorem isPrefix_of_seam (starts : other <+: text ++ more) (nonempty : text ≠ [])
    (apart : ∀ x ∈ text.getLast?, ∀ y ∈ more.head?, x ∈ other.dropLast → y ∉ other) :
    other <+: text := by
  rcases Nat.le_total other.length text.length with short | long
  · exact List.prefix_of_prefix_length_le starts (List.prefix_append text more) short
  · obtain ⟨beyond, rfl⟩ :=
      List.prefix_of_prefix_length_le (List.prefix_append text more) starts long
    cases beyond with
    | nil => exact ⟨[], by rw [List.append_nil, List.append_nil]⟩
    | cons y beyond =>
      obtain ⟨tail, rfl⟩ := (List.prefix_append_right_inj text).1 starts
      have last : text.getLast nonempty ∈ (text ++ y :: beyond).dropLast := by
        rw [List.dropLast_append_of_ne_nil (List.cons_ne_nil y beyond)]
        exact List.mem_append_left _ (List.getLast_mem nonempty)
      exact absurd (List.mem_append_right text List.mem_cons_self)
        (apart _ (List.getLast?_eq_some_getLast nonempty) y rfl last)

/-- Where the texts meet, one of the two characters is a separator. -/
def Seam (text more : List Char) : Prop :=
  ∀ x ∈ text.getLast?, ∀ y ∈ more.head?, isSeparator x = true ∨ isSeparator y = true

theorem Seam.of_append {front : List Char} (h : Seam (front ++ text) more) :
    Seam text more := by
  intro x hx
  refine h x ?_
  rw [List.getLast?_append, hx]
  rfl

/-- No text without separators reaches over a seam. -/
theorem Solid.isPrefix_of_seam (h : Solid other) (seam : Seam text more)
    (nonempty : text ≠ []) (starts : other <+: text ++ more) : other <+: text := by
  refine GuardedExpr.isPrefix_of_seam starts nonempty fun x hx y hy inside within => ?_
  rcases seam x hx y hy with separator | separator
  · rw [h x (List.dropLast_subset _ inside)] at separator
    cases separator
  · rw [h y within] at separator
    cases separator

end

/-! ## Classes of texts -/

namespace Lexeme

theorem IsDigits.forall_isWordPart {digits : List Char} (h : IsDigits digits) :
    ∀ c ∈ digits, isWordPart c = true :=
  fun c hc => isWordPart_of_isDigit (h.2 c hc)

/-- Besides the characters of words a numeral holds a point and signs only. -/
theorem IsNumeral.forall_mem {text : List Char} (h : IsNumeral text) :
    ∀ c ∈ text, isWordPart c = true ∨ c ∈ ['.', '+', '-'] := by
  obtain ⟨whole, part, power, hwhole, hpart, hpower, rfl⟩ := h
  have digits : ∀ {run}, IsDigits run → ∀ c ∈ run, isWordPart c = true ∨
      c ∈ ['.', '+', '-'] :=
    fun hrun c hc => .inl (hrun.forall_isWordPart c hc)
  have fraction : ∀ c ∈ part, isWordPart c = true ∨ c ∈ ['.', '+', '-'] := by
    cases hpart with
    | none => exact List.forall_mem_nil _
    | some hdigits => exact List.forall_mem_cons.2 ⟨.inr (by decide), digits hdigits⟩
  have exponent : ∀ c ∈ power, isWordPart c = true ∨ c ∈ ['.', '+', '-'] := by
    cases hpower with
    | none => exact List.forall_mem_nil _
    | some hmark hsign hdigits =>
      refine List.forall_mem_cons.2 ⟨.inl ?_, List.forall_mem_append.2 ⟨?_, digits hdigits⟩⟩
      · rcases hmark with rfl | rfl <;> decide
      · cases hsign <;> simp
  exact List.forall_mem_append.2
    ⟨List.forall_mem_append.2 ⟨digits hwhole, fraction⟩, exponent⟩

theorem IsWord.forall_isWordPart {text : List Char} (h : IsWord text) :
    ∀ c ∈ text, isWordPart c = true := by
  obtain ⟨c, rest, rfl, hc, hrest⟩ := h
  exact List.forall_mem_cons.2 ⟨isWordPart_of_isWordStart hc, hrest⟩

theorem IsWord.ne_nil {text : List Char} (h : IsWord text) : text ≠ [] := by
  obtain ⟨c, rest, rfl, -, -⟩ := h
  exact List.cons_ne_nil c rest

theorem IsOperator.ne_nil {text : List Char} (h : IsOperator text) : text ≠ [] := by
  rcases h with long | ⟨c, -, rfl⟩
  · exact (by decide : ∀ symbol ∈ longOperators, symbol ≠ []) text long
  · exact List.cons_ne_nil c []

theorem solid_of_isNumeral {text : List Char} (h : IsNumeral text) : Solid text := by
  intro c hc
  rcases h.forall_mem c hc with word | sign
  · exact isSeparator_of_isWordPart word
  · exact (by decide : ∀ c ∈ ['.', '+', '-'], isSeparator c = false) c sign

theorem solid_of_isWord {text : List Char} (h : IsWord text) : Solid text :=
  fun c hc => isSeparator_of_isWordPart (h.forall_isWordPart c hc)

theorem solid_of_isOperator {text : List Char} (h : IsOperator text) : Solid text := by
  rcases h with long | ⟨c, short, rfl⟩
  · revert text
    exact (by decide : ∀ symbol ∈ longOperators, ∀ c ∈ symbol, isSeparator c = false)
  · revert c
    exact (by decide : ∀ c ∈ shortOperators, ∀ d ∈ [c], isSeparator d = false)

namespace Longest

variable {Belongs : List Char → Prop} {part other front front' : List Char}

theorem unique (h : Longest Belongs part front) (h' : Longest Belongs other front) :
    part = other := by
  have length : part.length = other.length :=
    Nat.le_antisymm (h'.longest part h.belongs h.starts)
      (h.longest other h'.belongs h'.starts)
  exact (List.prefix_of_prefix_length_le h.starts h'.starts
    (Nat.le_of_eq length)).eq_of_length length

/-- A longest text of a class stays the longest in front of other text, unless that brings
a text without separators that could be longer. -/
theorem transfer (h : Longest Belongs part front)
    (solid : ∀ other, Belongs other → Solid other) (starts : part <+: front')
    (reflect : ∀ other, Solid other → other <+: front' → other <+: front) :
    Longest Belongs part front' :=
  ⟨h.belongs, starts, fun other belongs there =>
    h.longest other belongs (reflect other (solid other belongs) there)⟩

/-- A text of a class is the longest where nothing stands behind it. -/
theorem of_belongs (h : Belongs part) : Longest Belongs part (part ++ []) := by
  rw [List.append_nil]
  exact ⟨h, List.prefix_refl part, fun _ _ there => there.length_le⟩

end Longest

end Lexeme

end GuardedExpr
