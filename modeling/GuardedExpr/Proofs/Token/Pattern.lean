import GuardedExpr.Proofs.Token.Separator
import GuardedExpr.Token.Screen
import Mathlib.Data.List.Forall2

/-!
# Forbidden patterns

The texts for which a source is refused, stated without the way in which the screen looks
for them: a word letter by letter, a name with white space and an opening character behind
it, or an arrow. A source passes the screen if none of them stands in it.
-/

namespace GuardedExpr

/-- The text is the name letter by letter, up to what `same` ignores. -/
def Spells (same : Char → Char → Bool) (name part : List Char) : Prop :=
  List.Forall₂ (fun letter c => same letter c = true) name part

namespace ForbiddenUse

/-- The name of a use, and the characters one of which has to follow it. -/
def opened? : ForbiddenUse → Option (String × List Char)
  | .call name => some (name, ['('])
  | .access name => some (name, ['.', '['])
  | .arrow => none

/-- The text is a use, where it stands behind `before`. -/
inductive Matches (before : Option Char) : ForbiddenUse → List Char → Prop
  | named {use : ForbiddenUse} {name : String} {openers part gap : List Char} {opener : Char}
      (h : use.opened? = some (name, openers)) (fresh : ∀ c ∈ before, isWordChar c = false)
      (spells : Spells foldsTo name.toList part) (blank : ∀ c ∈ gap, isBlank c = true)
      (opens : opener ∈ openers) : Matches before use (part ++ (gap ++ [opener]))
  | arrow : Matches before .arrow ['=', '>']

end ForbiddenUse

/-- A source is refused for the text, where it stands behind `before`. -/
def Forbidden (before : Option Char) (part : List Char) : Prop :=
  (∃ word ∈ forbiddenWords, Spells sameLetter word.toList part) ∨
    ∃ use ∈ forbiddenUses, use.Matches before part

/-- Somewhere in a text behind `before` stands a part with a property. The property may
look at the character in front of the part. -/
def StandsIn (P : Option Char → List Char → Prop) (before : Option Char)
    (text : List Char) : Prop :=
  ∃ front part rest, text = front ++ (part ++ rest) ∧ P (front.getLast?.or before) part

/-- Nothing forbidden stands in a text behind `before`. -/
def Clean (before : Option Char) (text : List Char) : Prop :=
  ¬ StandsIn Forbidden before text

variable {P Q : Option Char → List Char → Prop} {before : Option Char} {c : Char}
  {text : List Char}

/-! ## Parts of a text -/

theorem getLast?_cons_or (before : Option Char) (c : Char) (front : List Char) :
    (c :: front).getLast?.or before = front.getLast?.or (some c) := by
  rw [List.getLast?_cons]
  cases front.getLast? <;> rfl

theorem standsIn_nil : StandsIn P before [] ↔ P before [] := by
  constructor
  · rintro ⟨front, part, rest, split, h⟩
    obtain ⟨rfl, behind⟩ := List.append_eq_nil_iff.1 split.symm
    obtain ⟨rfl, rfl⟩ := List.append_eq_nil_iff.1 behind
    exact h
  · exact fun h => ⟨[], [], [], rfl, h⟩

/-- A part stands at the front or further on. -/
theorem standsIn_cons : StandsIn P before (c :: text) ↔
    (∃ part, part <+: c :: text ∧ P before part) ∨ StandsIn P (some c) text := by
  constructor
  · rintro ⟨front, part, rest, split, h⟩
    cases front with
    | nil => exact .inl ⟨part, ⟨rest, split.symm⟩, h⟩
    | cons d front =>
      obtain ⟨rfl, further⟩ := List.cons.inj split
      rw [getLast?_cons_or] at h
      exact .inr ⟨front, part, rest, further, h⟩
  · rintro (⟨part, ⟨rest, split⟩, h⟩ | ⟨front, part, rest, rfl, h⟩)
    · exact ⟨[], part, rest, split.symm, h⟩
    · refine ⟨c :: front, part, rest, rfl, ?_⟩
      rwa [getLast?_cons_or]

/-! ## Names -/

variable {same : Char → Char → Bool} {name part rest : List Char}

theorem dropName?_eq_some_iff :
    dropName? same name text = some rest ↔ ∃ part, Spells same name part ∧
      text = part ++ rest := by
  induction name generalizing text with
  | nil =>
    constructor
    · intro h
      exact ⟨[], .nil, Option.some.inj h⟩
    · rintro ⟨part, spells, rfl⟩
      cases spells
      rfl
  | cons letter name ih =>
    cases text with
    | nil =>
      constructor
      · intro h
        cases h
      · rintro ⟨part, spells, split⟩
        cases spells
        cases split
    | cons c text =>
      rw [dropName?_cons]
      constructor
      · intro h
        split at h
        case isTrue first =>
          obtain ⟨part, spells, rfl⟩ := ih.1 h
          exact ⟨c :: part, .cons first spells, rfl⟩
        case isFalse => cases h
      · rintro ⟨part, spells, split⟩
        cases spells with
        | cons first further =>
          obtain ⟨rfl, rfl⟩ := List.cons.inj split
          rw [if_pos first]
          exact ih.2 ⟨_, further, rfl⟩

theorem isSome_dropName?_iff :
    (dropName? same name text).isSome = true ↔ ∃ part, Spells same name part ∧
      part <+: text := by
  rw [Option.isSome_iff_exists]
  constructor
  · rintro ⟨rest, h⟩
    obtain ⟨part, spells, rfl⟩ := dropName?_eq_some_iff.1 h
    exact ⟨part, spells, List.prefix_append part rest⟩
  · rintro ⟨part, spells, rest, rfl⟩
    exact ⟨rest, dropName?_eq_some_iff.2 ⟨part, spells, rfl⟩⟩

/-- A name that is looked for backwards in what was passed is one that ends there. -/
theorem isSome_dropName?_reverse_iff {passed : List Char} :
    (dropName? same name.reverse passed).isSome = true ↔
      ∃ part, Spells same name part ∧ part <:+ passed.reverse := by
  rw [isSome_dropName?_iff]
  constructor
  · rintro ⟨part, spells, starts⟩
    refine ⟨part.reverse, ?_, List.reverse_suffix.2 starts⟩
    rw [← List.reverse_reverse name]
    exact List.forall₂_reverse_iff.2 spells
  · rintro ⟨part, spells, ends⟩
    refine ⟨part.reverse, List.forall₂_reverse_iff.2 spells, ?_⟩
    rwa [← List.reverse_suffix, List.reverse_reverse]

/-! ## Words -/

/-- No word is found if none ends at a place further on. -/
theorem firstWord?_eq_none_iff {passed : List Char} :
    firstWord? passed text = none ↔
      ∀ word ∈ forbiddenWords, ∀ front rest, text = front ++ rest →
      front ≠ [] → ¬ ∃ part, Spells sameLetter word.toList part ∧
      part <:+ passed.reverse ++ front := by
  induction text generalizing passed with
  | nil =>
    refine ⟨fun _ word _ front rest split nonempty => ?_, fun _ => rfl⟩
    exact absurd (List.append_eq_nil_iff.1 split.symm).1 nonempty
  | cons c text ih =>
    have here : ∀ word : String,
        (dropName? sameLetter word.toList.reverse (c :: passed)).isSome = true ↔
        ∃ part, Spells sameLetter word.toList part ∧ part <:+ passed.reverse ++ [c] := by
      intro word
      rw [isSome_dropName?_reverse_iff, List.reverse_cons]
    rw [firstWord?]
    constructor
    · intro h word member front rest split nonempty
      obtain ⟨d, front, rfl⟩ := List.exists_cons_of_ne_nil nonempty
      obtain ⟨rfl, further⟩ := List.cons.inj split
      split at h
      case h_1 => cases h
      case h_2 missed =>
        cases front with
        | nil =>
          rw [← here]
          exact List.find?_eq_none.1 missed word member
        | cons d front =>
          have later :=
            ih.1 h word member (d :: front) rest further (List.cons_ne_nil d front)
          rwa [List.reverse_cons, List.append_assoc] at later
    · intro h
      have missed : (forbiddenWords.find? fun word =>
          (dropName? sameLetter word.toList.reverse (c :: passed)).isSome) = none := by
        refine List.find?_eq_none.2 fun word member => ?_
        rw [here]
        exact h word member [c] text rfl (List.cons_ne_nil c [])
      rw [missed]
      refine ih.2 fun word member front rest split _ => ?_
      rw [List.reverse_cons, List.append_assoc]
      exact h word member (c :: front) rest (congrArg (c :: ·) split)
        (List.cons_ne_nil c front)

theorem forbiddenWords_ne_nil : ∀ word ∈ forbiddenWords, word.toList ≠ [] := by
  decide

theorem Spells.ne_nil (h : Spells same name part) (nonempty : name ≠ []) : part ≠ [] := by
  rintro rfl
  cases h
  exact nonempty rfl

theorem firstWord?_nil_eq_none_iff : firstWord? [] text = none ↔
    ∀ word ∈ forbiddenWords,
      ¬ StandsIn (fun _ part => Spells sameLetter word.toList part) none text := by
  rw [firstWord?_eq_none_iff]
  constructor
  · rintro h word member ⟨front, part, rest, split, spells⟩
    have nonempty := spells.ne_nil (forbiddenWords_ne_nil word member)
    rw [← List.append_assoc] at split
    exact h word member (front ++ part) rest split
      (List.append_ne_nil_of_right_ne_nil front nonempty)
      ⟨part, spells, List.suffix_append front part⟩
  · rintro h word member front rest split - ⟨part, spells, before, rfl⟩
    exact h word member ⟨before, part, rest, by rw [split, List.append_assoc], spells⟩

/-! ## Uses -/

namespace ForbiddenUse

variable {use : ForbiddenUse}

theorem isBlank_of_mem_openers {name : String} {openers : List Char}
    (h : use.opened? = some (name, openers)) : ∀ c ∈ openers, isBlank c = false := by
  cases use <;> cases h <;> decide

theorem namedBefore_iff {name : String} {openers : List Char}
    (visible : ∀ c ∈ openers, isBlank c = false) :
    namedBefore name openers text = true ↔
      ∃ part gap opener, Spells foldsTo name.toList part ∧
      (∀ c ∈ gap, isBlank c = true) ∧ opener ∈ openers ∧
      part ++ (gap ++ [opener]) <+: text := by
  rw [namedBefore]
  constructor
  · intro h
    split at h
    case h_1 rest dropped =>
      obtain ⟨part, spells, rfl⟩ := dropName?_eq_some_iff.1 dropped
      cases behind : rest.dropWhile isBlank with
      | nil =>
        rw [behind] at h
        cases h
      | cons opener after =>
        rw [behind] at h
        have split : rest.takeWhile isBlank ++ opener :: after = rest := by
          rw [← behind]
          exact List.takeWhile_append_dropWhile
        refine ⟨part, rest.takeWhile isBlank, opener, spells,
          List.all_eq_true.1 List.all_takeWhile, List.contains_iff_mem.1 h, after, ?_⟩
        conv => rhs; rw [← split]
        rw [List.append_assoc, List.append_assoc]
        rfl
    case h_2 => cases h
  · rintro ⟨part, gap, opener, spells, blank, opens, rest, rfl⟩
    have split : part ++ (gap ++ [opener]) ++ rest = part ++ (gap ++ opener :: rest) := by
      rw [List.append_assoc, List.append_assoc]
      rfl
    have stop : ∀ c ∈ (opener :: rest).head?, isBlank c = false := by
      rintro c ⟨⟩
      exact visible opener opens
    rw [split, dropName?_eq_some_iff.2 ⟨part, spells, rfl⟩]
    show ((gap ++ opener :: rest).dropWhile isBlank).head?.any openers.contains = true
    rw [dropWhile_isBlank blank stop]
    exact List.contains_iff_mem.2 opens

theorem exists_matches_iff {name : String} {openers : List Char}
    (h : use.opened? = some (name, openers)) :
    (∃ part, part <+: text ∧ use.Matches before part) ↔
      (!before.any isWordChar && namedBefore name openers text) = true := by
  have fresh : (!before.any isWordChar) = true ↔ ∀ c ∈ before, isWordChar c = false := by
    cases before <;> simp
  rw [Bool.and_eq_true, fresh, namedBefore_iff (isBlank_of_mem_openers h)]
  constructor
  · rintro ⟨_, starts, found⟩
    cases found with
    | named h' fresh spells blank opens =>
      rw [h] at h'
      cases h'
      exact ⟨fresh, _, _, _, spells, blank, opens, starts⟩
    | arrow => cases h
  · rintro ⟨fresh, part, gap, opener, spells, blank, opens, starts⟩
    exact ⟨_, starts, .named h fresh spells blank opens⟩

theorem startsAt_iff : use.startsAt before text = true ↔
    ∃ part, part <+: text ∧ use.Matches before part := by
  cases use with
  | call name =>
    rw [startsAt]
    exact (exists_matches_iff rfl).symm
  | access name =>
    rw [startsAt]
    exact (exists_matches_iff rfl).symm
  | arrow =>
    rw [startsAt, List.isPrefixOf_iff_prefix]
    constructor
    · exact fun starts => ⟨_, starts, .arrow⟩
    · rintro ⟨_, starts, found⟩
      cases found with
      | named h => cases h
      | arrow => exact starts

theorem Matches.ne_nil (h : use.Matches before part) : part ≠ [] := by
  cases h with
  | named => simp
  | arrow => exact List.cons_ne_nil _ _

theorem occurs_iff : use.occurs before text = true ↔ StandsIn use.Matches before text := by
  induction text generalizing before with
  | nil =>
    rw [standsIn_nil]
    exact ⟨fun h => (nomatch h), fun h => absurd rfl h.ne_nil⟩
  | cons c text ih => rw [occurs, Bool.or_eq_true, startsAt_iff, ih, standsIn_cons]

end ForbiddenUse

/-! ## The screen -/

theorem Forbidden.ne_nil (h : Forbidden before part) : part ≠ [] := by
  rcases h with ⟨word, member, spells⟩ | ⟨use, -, found⟩
  · exact spells.ne_nil (forbiddenWords_ne_nil word member)
  · exact found.ne_nil

theorem clean_nil (before : Option Char) : Clean before [] :=
  fun h => (standsIn_nil.1 h).ne_nil rfl

theorem clean_cons : Clean before (c :: text) ↔
    (∀ part, part <+: c :: text → ¬ Forbidden before part) ∧ Clean (some c) text := by
  rw [Clean, standsIn_cons, not_or, not_exists]
  simp only [not_and]
  rfl

theorem standsIn_forbidden_iff : StandsIn Forbidden before text ↔
    (∃ word ∈ forbiddenWords,
      StandsIn (fun _ part => Spells sameLetter word.toList part) before text) ∨
      ∃ use ∈ forbiddenUses, StandsIn use.Matches before text := by
  constructor
  · rintro ⟨front, part, rest, split, ⟨word, member, spells⟩ | ⟨use, member, found⟩⟩
    · exact .inl ⟨word, member, front, part, rest, split, spells⟩
    · exact .inr ⟨use, member, front, part, rest, split, found⟩
  · rintro (⟨word, member, front, part, rest, split, spells⟩ |
      ⟨use, member, front, part, rest, split, found⟩)
    · exact ⟨front, part, rest, split, .inl ⟨word, member, spells⟩⟩
    · exact ⟨front, part, rest, split, .inr ⟨use, member, found⟩⟩

/-- A source passes if nothing forbidden stands in it. -/
theorem screen_eq_none_iff : screen text = none ↔ Clean none text := by
  rw [Clean, standsIn_forbidden_iff, not_or, screen]
  cases found : firstWord? [] text with
  | some word =>
    refine ⟨fun h => (nomatch h), fun ⟨clean, _⟩ => ?_⟩
    have none := firstWord?_nil_eq_none_iff.2 fun word member stands =>
      clean ⟨word, member, stands⟩
    rw [none] at found
    cases found
  | none =>
    have words : ¬ ∃ word ∈ forbiddenWords,
        StandsIn (fun _ part => Spells sameLetter word.toList part) none text :=
      fun ⟨word, member, stands⟩ => firstWord?_nil_eq_none_iff.1 found word member stands
    show (forbiddenUses.find? (·.occurs none text)).map ForbiddenUse.pattern = none ↔ _
    rw [Option.map_eq_none_iff, List.find?_eq_none, and_iff_right words, not_exists]
    simp only [not_and, ForbiddenUse.occurs_iff]

/-! ## Characters of patterns -/

theorem Spells.forall_mem {p : Char → Prop} (h : Spells same name part)
    (letters : ∀ letter ∈ name, ∀ c, same letter c = true → p c) : ∀ c ∈ part, p c := by
  induction h with
  | nil => exact List.forall_mem_nil _
  | cons first _ ih =>
    obtain ⟨hletter, others⟩ := List.forall_mem_cons.1 letters
    exact List.forall_mem_cons.2 ⟨hletter _ first, ih others⟩

theorem toLower_eq_self (h : c.isUpper = false) : c.toLower = c :=
  dif_neg (of_decide_eq_false h)

/-- The letters of ASCII are word characters. -/
theorem isWordChar_of_toNat
    (h : (0x41 ≤ c.toNat ∧ c.toNat ≤ 0x5A) ∨ (0x61 ≤ c.toNat ∧ c.toNat ≤ 0x7A)) :
    isWordChar c = true :=
  (by decide : ∀ n < 0x80, (0x41 ≤ n ∧ n ≤ 0x5A) ∨ (0x61 ≤ n ∧ n ≤ 0x7A) →
    wordCharacters.covers n = true) c.toNat (by omega) h

/-- White space is no word character. -/
theorem isWordChar_of_isBlank (h : isBlank c = true) : isWordChar c = false := by
  have here :
      c.toNat ∈ [0x9, 0xA, 0xB, 0xC, 0xD, 0x20, 0x85, 0xA0, 0x1680, 0x2000, 0x2001, 0x2002,
      0x2003, 0x2004, 0x2005, 0x2006, 0x2007, 0x2008, 0x2009, 0x200A, 0x2028, 0x2029,
      0x202F, 0x205F, 0x3000] := by
    rw [isBlank, CharSet.contains] at h
    simp [blanks, CharSet.covers_cons] at h ⊢
    omega
  clear h
  rw [isWordChar, CharSet.contains]
  generalize c.toNat = n at here ⊢
  revert n
  decide +kernel

/-- What a lower-case letter folds to is a word character, also beyond ASCII. -/
theorem isWordChar_of_foldsTo {letter : Char} (lower : letter.isLower = true)
    (h : foldsTo letter c = true) : isWordChar c = true := by
  rw [foldsTo, Bool.or_eq_true, Bool.or_eq_true, Bool.and_eq_true, Bool.and_eq_true,
    beq_iff_eq, beq_iff_eq, beq_iff_eq, beq_iff_eq, beq_iff_eq] at h
  rcases h with (same | ⟨-, rfl⟩) | ⟨-, rfl⟩
  · cases upper : c.isUpper with
    | true => exact isWordChar_of_toNat (.inl (toNat_of_isUpper upper))
    | false =>
      rw [toLower_eq_self upper] at same
      rw [← same] at lower
      exact isWordChar_of_toNat (.inr (toNat_of_isLower lower))
  · decide +kernel
  · decide +kernel

/-- The marks that open or close something, and the point. -/
def marks : List Char :=
  ['.', '(', ')', '[', ']']

/-- Neither white space nor a mark. -/
def IsInk (c : Char) : Prop :=
  isBlank c = false ∧ c ∉ marks

instance (c : Char) : Decidable (IsInk c) :=
  inferInstanceAs (Decidable (_ ∧ _))

theorem isInk_of_isWordChar (h : isWordChar c = true) : IsInk c := by
  constructor
  · rw [← Bool.not_eq_true]
    intro blank
    rw [isWordChar_of_isBlank blank] at h
    cases h
  · intro member
    rw [(by decide +kernel : ∀ mark ∈ marks, isWordChar mark = false) c member] at h
    cases h

theorem isInk_of_sameLetter : ∀ word ∈ forbiddenWords, ∀ letter ∈ word.toList, ∀ c,
    sameLetter letter c = true → IsInk c := by
  intro word member letter inside c same
  rw [sameLetter, beq_iff_eq] at same
  cases upper : c.isUpper with
  | true => exact isInk_of_isWordChar (isWordChar_of_toNat (.inl (toNat_of_isUpper upper)))
  | false =>
    rw [toLower_eq_self upper] at same
    rw [same]
    exact (by decide : ∀ word ∈ forbiddenWords, ∀ letter ∈ word.toList, IsInk letter)
      word member
      letter inside

theorem isLower_of_mem_opened {use : ForbiddenUse} (member : use ∈ forbiddenUses)
    {name : String} {openers : List Char} (h : use.opened? = some (name, openers)) :
    ∀ letter ∈ name.toList, letter.isLower = true := by
  have lower : ∀ use ∈ forbiddenUses, ∀ opened ∈ use.opened?, ∀ letter ∈ opened.1.toList,
      letter.isLower = true := by
    decide
  exact lower use member (name, openers) h

theorem Spells.ne_nil_of_opened {use : ForbiddenUse} (member : use ∈ forbiddenUses)
    {name : String} {openers part : List Char} (h : use.opened? = some (name, openers))
    (spells : Spells foldsTo name.toList part) : part ≠ [] := by
  have named : ∀ use ∈ forbiddenUses, ∀ opened ∈ use.opened?, opened.1.toList ≠ [] := by
    decide
  exact spells.ne_nil (named use member (name, openers) h)

theorem mem_of_mem_openers {use : ForbiddenUse} {name : String} {openers : List Char}
    (h : use.opened? = some (name, openers)) : openers ⊆ ['(', '.', '['] := by
  cases use <;> cases h <;> decide

theorem not_mem_marks_of_isBlank (h : isBlank c = true) : c ∉ marks := by
  intro member
  rw [(by decide : ∀ mark ∈ marks, isBlank mark = false) c member] at h
  cases h

/-- The letters of a forbidden use are word characters. -/
theorem isWordChar_of_spells {use : ForbiddenUse} (member : use ∈ forbiddenUses)
    {name : String} {openers part : List Char} (h : use.opened? = some (name, openers))
    (spells : Spells foldsTo name.toList part) : ∀ c ∈ part, isWordChar c = true :=
  spells.forall_mem fun letter inside _ =>
    isWordChar_of_foldsTo (isLower_of_mem_opened member h letter inside)

/-- A mark can only be the last character of a pattern. -/
theorem Forbidden.not_mem_marks (h : Forbidden before part) :
    ∀ c ∈ part.dropLast, c ∉ marks := by
  intro c hc
  rcases h with ⟨word, member, spells⟩ | ⟨use, member, found⟩
  · exact
      (spells.forall_mem (isInk_of_sameLetter word member) c (List.dropLast_subset _ hc)).2
  · cases found with
    | @named use name openers part gap opener h fresh spells blank opens =>
      rw [← List.append_assoc, List.dropLast_concat] at hc
      rcases List.mem_append.1 hc with inside | inside
      · exact (isInk_of_isWordChar (isWordChar_of_spells member h spells c inside)).2
      · exact not_mem_marks_of_isBlank (blank c inside)
    | arrow =>
      rw [List.mem_singleton.1 hc]
      decide

/-- A closing mark is in no pattern. -/
theorem Forbidden.not_mem_closing (h : Forbidden before part) :
    ∀ c ∈ part, c ∉ [')', ']'] := by
  intro c hc closing
  have mark : c ∈ marks := (by decide : [')', ']'] ⊆ marks) closing
  rcases h with ⟨word, member, spells⟩ | ⟨use, member, found⟩
  · exact (spells.forall_mem (isInk_of_sameLetter word member) c hc).2 mark
  · cases found with
    | @named use name openers part gap opener h fresh spells blank opens =>
      rcases List.mem_append.1 hc with inside | behind
      · exact (isInk_of_isWordChar (isWordChar_of_spells member h spells c inside)).2 mark
      · rcases List.mem_append.1 behind with inside | last
        · exact not_mem_marks_of_isBlank (blank c inside) mark
        · rw [List.mem_singleton.1 last] at closing
          exact (by decide : ∀ c ∈ ['(', '.', '['], c ∉ [')', ']']) opener
            (mem_of_mem_openers h opens) closing
    | arrow =>
      exact (by decide : ∀ c ∈ ['=', '>'], c ∉ [')', ']']) c hc closing

/-- No pattern starts with white space. -/
theorem Forbidden.isBlank_head? (h : Forbidden before part) :
    ∀ c ∈ part.head?, isBlank c = false := by
  intro c hc
  rcases h with ⟨word, member, spells⟩ | ⟨use, member, found⟩
  · have inside := List.mem_of_mem_head? hc
    exact (spells.forall_mem (isInk_of_sameLetter word member) c inside).1
  · cases found with
    | @named use name openers part gap opener h fresh spells blank opens =>
      have nonempty := spells.ne_nil_of_opened member h
      rw [List.head?_append, Option.or_of_isSome (List.isSome_head?.2 nonempty)] at hc
      have letters := isWordChar_of_spells member h spells
      exact (isInk_of_isWordChar (letters c (List.mem_of_mem_head? hc))).1
    | arrow =>
      cases hc
      decide

/-! ## Texts that meet -/

/-- Behind no character more is forbidden than behind any. -/
theorem Forbidden.of_before (h : Forbidden before part) : Forbidden none part := by
  rcases h with word | ⟨use, member, found⟩
  · exact .inl word
  · refine .inr ⟨use, member, ?_⟩
    cases found with
    | named h _ spells blank opens =>
      exact .named h (fun _ none => nomatch none) spells blank opens
    | arrow => exact .arrow

theorem Clean.behind (h : Clean none text) (before : Option Char) : Clean before text := by
  cases text with
  | nil => exact clean_nil before
  | cons c text =>
    obtain ⟨here, further⟩ := clean_cons.1 h
    exact clean_cons.2 ⟨fun part starts bad => here part starts bad.of_before, further⟩

/-- Clean texts make a clean text where a mark ends the first or a closing
mark starts the second. -/
theorem Clean.append {more : List Char} (h : Clean before text) (hmore : Clean none more)
    (seam : ∀ x ∈ text.getLast?, ∀ y ∈ more.head?, x ∈ marks ∨ y ∈ [')', ']']) :
    Clean before (text ++ more) := by
  induction text generalizing before with
  | nil => exact hmore.behind before
  | cons c text ih =>
    obtain ⟨here, further⟩ := clean_cons.1 h
    refine clean_cons.2 ⟨fun part starts bad => here part ?_ bad, ih further fun x hx =>
      seam x ?_⟩
    · refine isPrefix_of_seam starts
        (List.cons_ne_nil c text) fun x hx y hy inside within => ?_
      rcases seam x hx y hy with mark | closing
      · exact bad.not_mem_marks x inside mark
      · exact bad.not_mem_closing y within closing
    · rw [List.getLast?_cons, hx]
      rfl

end GuardedExpr
