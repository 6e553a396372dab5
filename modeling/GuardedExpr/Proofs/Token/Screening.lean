import GuardedExpr.Proofs.Token.Pattern
import GuardedExpr.Proofs.Token.Reading

/-!
# What the screen names

The screen refuses a source for a forbidden word somewhere in it, whatever the case of its
letters, or for a forbidden use. Of several words it names the one that ends first; as no
word ends another, there is only one such. Of several uses, when there is no word, it names
the first in their list, wherever they stand.
-/

namespace GuardedExpr

variable {source text front back part passed : List Char} {word other : String}
  {use : ForbiddenUse}

/-! ## Words -/

theorem spells_sameLetter_iff {name : List Char} :
    Spells sameLetter name part ↔ asciiLower part = name := by
  induction part generalizing name with
  | nil =>
    constructor
    · intro h
      cases h
      rfl
    · rintro rfl
      exact .nil
  | cons c part ih =>
    rw [asciiLower, List.map_cons]
    constructor
    · intro h
      cases h with
      | cons first further => exact congrArg₂ _ (beq_iff_eq.1 first) (ih.1 further)
    · rintro rfl
      exact .cons (beq_self_eq_true _) (ih.2 rfl)

/-- A word that is spelled at the end of a text is the end of the text in lower case. -/
theorem exists_spells_suffix_iff {name : List Char} :
    (∃ part, Spells sameLetter name part ∧ part <:+ text) ↔ name <:+ asciiLower text := by
  constructor
  · rintro ⟨part, spells, front, rfl⟩
    rw [← spells_sameLetter_iff.1 spells, asciiLower, asciiLower, List.map_append]
    exact List.suffix_append _ _
  · rintro ⟨front, split⟩
    obtain ⟨first, part, rfl, -, rfl⟩ := List.map_eq_append_iff.1 split.symm
    exact ⟨part, spells_sameLetter_iff.2 rfl, List.suffix_append first part⟩

/-- The word ends at a place of the source, up to ASCII case. -/
def EndsAt (word : String) (place : Nat) (source : List Char) : Prop :=
  place ≤ source.length ∧ word.toList <:+ asciiLower (source.take place)

theorem exists_endsAt_iff :
    (∃ place, EndsAt word place source) ↔ word.toList <:+: asciiLower source := by
  constructor
  · rintro ⟨place, -, ends⟩
    refine ends.isInfix.trans (List.IsPrefix.isInfix ?_)
    rw [asciiLower, List.map_take]
    exact List.take_prefix _ _
  · rintro ⟨front, rest, split⟩
    obtain ⟨first, behind, rfl, whole, -⟩ := List.map_eq_append_iff.1 split.symm
    refine ⟨first.length, ?_, front, ?_⟩
    · rw [List.length_append]
      exact Nat.le_add_right _ _
    · rw [List.take_left, asciiLower, whole]

/-- No forbidden word is the end of another one. -/
theorem eq_of_suffix : ∀ word ∈ forbiddenWords, ∀ other ∈ forbiddenWords,
    word.toList <:+ other.toList → word = other := by
  decide

/-- At one place no two forbidden words end. -/
theorem EndsAt.unique {place : Nat} (member : word ∈ forbiddenWords)
    (member' : other ∈ forbiddenWords) (h : EndsAt word place source)
    (h' : EndsAt other place source) : word = other := by
  rcases List.suffix_or_suffix_of_suffix h.2 h'.2 with ends | ends
  · exact eq_of_suffix word member other member' ends
  · exact (eq_of_suffix other member' word member ends).symm

/-- The word found ends no later than any other, in the text behind what was passed. -/
theorem firstWord?_eq_some (h : firstWord? passed text = some word) :
    word ∈ forbiddenWords ∧ ∃ place, place ≤ text.length ∧
      word.toList <:+ asciiLower (passed.reverse ++ text.take place) ∧
      ∀ other ∈ forbiddenWords, ∀ place', 0 < place' → place' ≤ text.length →
        other.toList <:+ asciiLower (passed.reverse ++ text.take place') →
        place ≤ place' := by
  induction text generalizing passed with
  | nil => cases h
  | cons c text ih =>
    have here : ∀ word : String,
        (dropName? sameLetter word.toList.reverse (c :: passed)).isSome = true ↔
        word.toList <:+ asciiLower (passed.reverse ++ [c]) := by
      intro word
      rw [isSome_dropName?_reverse_iff, List.reverse_cons, exists_spells_suffix_iff]
    have moved : ∀ place, (c :: passed).reverse ++ text.take place =
        passed.reverse ++ (c :: text).take (place + 1) := by
      intro place
      rw [List.reverse_cons, List.append_assoc, List.take_succ_cons]
      rfl
    rw [firstWord?] at h
    split at h
    case h_1 first found =>
      obtain rfl := Option.some.inj h
      refine ⟨List.mem_of_find?_eq_some found, 1, Nat.succ_le_succ (Nat.zero_le _), ?_, ?_⟩
      · exact (here _).1 (by simpa using List.find?_some found)
      · exact fun _ _ place' positive _ _ => positive
    case h_2 missed =>
      obtain ⟨member, place, inside, ends, first⟩ := ih h
      refine ⟨member, place + 1, Nat.succ_le_succ inside, ?_, ?_⟩
      · rwa [← moved]
      · intro other hother place' positive inside' ends'
        obtain ⟨place', rfl⟩ := Nat.exists_eq_add_one_of_ne_zero (Nat.ne_of_gt positive)
        rw [← moved] at ends'
        cases place' with
        | zero =>
          refine absurd ((here other).2 ?_) (List.find?_eq_none.1 missed other hother)
          rwa [List.take_zero, List.append_nil, List.reverse_cons] at ends'
        | succ place' =>
          exact Nat.succ_le_succ (first other hother (place' + 1) (Nat.succ_pos _)
            (Nat.le_of_succ_le_succ inside') ends')

theorem standsIn_spells_iff :
    StandsIn (fun _ part => Spells sameLetter word.toList part) none source ↔
    word.toList <:+: asciiLower source := by
  constructor
  · rintro ⟨front, part, rest, rfl, spells⟩
    rw [← spells_sameLetter_iff.1 spells]
    refine ⟨asciiLower front, asciiLower rest, ?_⟩
    rw [asciiLower, asciiLower, asciiLower, asciiLower, List.map_append, List.map_append,
      List.append_assoc]
  · intro stands
    obtain ⟨place, -, ends⟩ := exists_endsAt_iff.2 stands
    obtain ⟨part, spells, front, split⟩ := exists_spells_suffix_iff.2 ends
    refine ⟨front, part, source.drop place, ?_, spells⟩
    rw [← List.append_assoc, split, List.take_append_drop]

theorem firstWord?_nil_eq_none_iff_infix :
    firstWord? [] source = none ↔
      ∀ word ∈ forbiddenWords, ¬ word.toList <:+: asciiLower source := by
  simp only [firstWord?_nil_eq_none_iff, standsIn_spells_iff]

/-- The word found is the only one that ends first in the source. -/
theorem firstWord?_nil_eq_some (h : firstWord? [] source = some word) :
    word ∈ forbiddenWords ∧ ∃ place, EndsAt word place source ∧
      ∀ other ∈ forbiddenWords, ∀ place', EndsAt other place' source →
        place ≤ place' ∧ (place = place' → other = word) := by
  obtain ⟨member, place, inside, ends, first⟩ := firstWord?_eq_some h
  have here : EndsAt word place source := ⟨inside, ends⟩
  refine ⟨member, place, here, fun other hother place' there => ⟨?_, ?_⟩⟩
  · refine first other hother place' (Nat.pos_of_ne_zero ?_) there.1 there.2
    rintro rfl
    have empty := there.2
    rw [List.take_zero] at empty
    exact forbiddenWords_ne_nil other hother (List.suffix_nil.1 empty)
  · rintro rfl
    exact there.unique hother member here

/-! ## Uses -/

/-- A word starts or ends between the two texts: there is a word
character on one side only. -/
def IsBoundary (front back : List Char) : Prop :=
  front.getLast?.any isWordChar ≠ back.head?.any isWordChar

/-- In the source a word starts with the name, up to case folding, and one of the
characters follows, perhaps with white space between. -/
def Opens (name : String) (openers source : List Char) : Prop :=
  ∃ front part gap opener rest, source = front ++ (part ++ (gap ++ opener :: rest)) ∧
    IsBoundary front (part ++ (gap ++ opener :: rest)) ∧ Spells foldsTo name.toList part ∧
    (∀ c ∈ gap, isBlank c = true) ∧ opener ∈ openers

/-- The use stands somewhere in the source. -/
def ForbiddenUse.OccursIn (source : List Char) : ForbiddenUse → Prop
  | .call name => Opens name ['('] source
  | .access name => Opens name ['.', '['] source
  | .arrow => ['=', '>'] <:+: source

theorem isBoundary_iff (nonempty : part ≠ []) (letters : ∀ c ∈ part, isWordChar c = true) :
    IsBoundary front (part ++ back) ↔ ∀ c ∈ front.getLast?, isWordChar c = false := by
  obtain ⟨c, part, rfl⟩ := List.exists_cons_of_ne_nil nonempty
  have first : ((c :: part ++ back).head?.any isWordChar) = true :=
    letters c List.mem_cons_self
  rw [IsBoundary, first]
  cases front.getLast? <;> simp

theorem standsIn_matches_iff_opens {name : String} {openers : List Char}
    (member : use ∈ forbiddenUses) (h : use.opened? = some (name, openers)) :
    StandsIn use.Matches none source ↔ Opens name openers source := by
  have boundary : ∀ {front part back}, Spells foldsTo name.toList part →
      (IsBoundary front (part ++ back) ↔
        ∀ c ∈ front.getLast?.or none, isWordChar c = false) := by
    intro front part back spells
    rw [Option.or_none]
    exact isBoundary_iff (spells.ne_nil_of_opened member h)
      (isWordChar_of_spells member h spells)
  constructor
  · rintro ⟨front, _, rest, split, found⟩
    cases found with
    | named h' fresh spells blank opens =>
      rw [h] at h'
      cases h'
      rw [List.append_assoc, List.append_assoc, List.singleton_append] at split
      exact ⟨front, _, _, _, rest, split, (boundary spells).2 fresh, spells, blank, opens⟩
    | arrow => cases h
  · rintro ⟨front, part, gap, opener, rest, split, fresh, spells, blank, opens⟩
    refine ⟨front, _, rest, ?_, .named h ((boundary spells).1 fresh) spells blank opens⟩
    rw [split, List.append_assoc, List.append_assoc, List.singleton_append]

theorem occurs_iff_occursIn (member : use ∈ forbiddenUses) :
    use.occurs none source = true ↔ use.OccursIn source := by
  rw [ForbiddenUse.occurs_iff]
  cases use with
  | call name => exact standsIn_matches_iff_opens member rfl
  | access name => exact standsIn_matches_iff_opens member rfl
  | arrow =>
    constructor
    · rintro ⟨front, _, rest, split, found⟩
      cases found with
      | named h => cases h
      | arrow => exact ⟨front, rest, by rw [split, List.append_assoc]⟩
    · rintro ⟨front, rest, split⟩
      exact ⟨front, _, rest, by rw [← split, List.append_assoc], .arrow⟩

/-! ## The screen -/

/-- A source that is neither too long nor holds a forbidden character is refused for
what the screen names. -/
theorem tokenize_of_screen {limits : SourceLimits} {source : String} {pattern : String}
    (short : source.length ≤ limits.maxLength)
    (allowed : ∀ c ∈ source.toList, isForbiddenChar c = false)
    (h : screen source.toList = some pattern) :
    tokenize source limits = .error (.security (.forbiddenPattern pattern)) := by
  have absent : source.toList.find? isForbiddenChar = none :=
    List.find?_eq_none.2 fun c hc => Bool.eq_false_iff.1 (allowed c hc)
  rw [← String.length_toList] at short
  have refused : checkSource limits source.toList =
      .error (.security (.forbiddenPattern pattern)) := by
    rw [checkSource, if_neg (Nat.not_lt.2 short)]
    simp only [absent, h]
  rw [tokenize, refused]

/-- A source is refused exactly if a forbidden word or a forbidden use stands in it. If
words do, the one that ends first is named, and no other one ends there. If only uses do,
the first of their list is named that stands anywhere in the source. -/
theorem screen_names_first (source : String) :
    (screen source.toList ≠ none ↔
      (∃ word ∈ forbiddenWords, word.toList <:+: asciiLower source.toList) ∨
        ∃ use ∈ forbiddenUses, use.OccursIn source.toList) ∧
    ((∃ word ∈ forbiddenWords, word.toList <:+: asciiLower source.toList) →
      ∃ first ∈ forbiddenWords, screen source.toList = some first ∧
        ∃ place, EndsAt first place source.toList ∧
          ∀ other ∈ forbiddenWords, ∀ place', EndsAt other place' source.toList →
            place ≤ place' ∧ (place = place' → other = first)) ∧
    (¬ (∃ word ∈ forbiddenWords, word.toList <:+: asciiLower source.toList) →
      ∀ earlier use later, forbiddenUses = earlier ++ use :: later →
        use.OccursIn source.toList → (∀ other ∈ earlier, ¬ other.OccursIn source.toList) →
        screen source.toList = some use.pattern) ∧
    ∀ limits pattern, source.length ≤ limits.maxLength →
      (∀ c ∈ source.toList, isForbiddenChar c = false) →
      screen source.toList = some pattern →
      tokenize source limits = .error (.security (.forbiddenPattern pattern)) := by
  have words : (∃ word ∈ forbiddenWords, word.toList <:+: asciiLower source.toList) ↔
      firstWord? [] source.toList ≠ none := by
    rw [ne_eq, firstWord?_nil_eq_none_iff_infix]
    simp only [not_forall, not_not, exists_prop]
  have named : firstWord? [] source.toList = none → screen source.toList =
      (forbiddenUses.find? (·.occurs none source.toList)).map ForbiddenUse.pattern := by
    intro wordless
    rw [screen, wordless]
  refine ⟨?_, ?_, ?_, fun limits pattern short allowed h =>
    tokenize_of_screen short allowed h⟩
  · rw [words]
    cases found : firstWord? [] source.toList with
    | some word =>
      rw [screen, found]
      simp
    | none =>
      rw [named found, ne_eq, Option.map_eq_none_iff, List.find?_eq_none]
      simp only [not_forall, not_not, exists_prop, ne_eq, not_true_eq_false, false_or]
      exact exists_congr fun use => and_congr_right occurs_iff_occursIn
  · intro present
    obtain ⟨first, found⟩ := Option.ne_none_iff_exists'.1 (words.1 present)
    obtain ⟨member, place, ends, least⟩ := firstWord?_nil_eq_some found
    exact ⟨first, member, by rw [screen, found], place, ends, least⟩
  · intro wordless earlier use later split stands missed
    have inside : ∀ {other}, other ∈ earlier ++ use :: later → other ∈ forbiddenUses :=
      fun h => split ▸ h
    rw [words, not_not] at wordless
    have here := (occurs_iff_occursIn (inside (by simp))).2 stands
    have before : ∀ other ∈ earlier, ¬ other.occurs none source.toList = true := by
      intro other hother
      rw [occurs_iff_occursIn (inside (List.mem_append_left _ hother))]
      exact missed other hother
    have found : forbiddenUses.find? (·.occurs none source.toList) = some use := by
      rw [split, List.find?_append, List.find?_eq_none.2 before, List.find?_cons, here]
      rfl
    rw [named wordless, found]
    rfl

/-- A word is named in front of a use, and of two words the one that ends first. Without a
word the first use of the list is named, though here another one stands in front of it. -/
theorem screen_names_first_prototype :
    screen "eval(PROTOTYPE javascript:)".toList = some "prototype" ∧
      screen "a => Eval (1)".toList = some "\\beval\\s*\\(" ∧
      tokenize "a => Eval (1)" =
        .error (.security (.forbiddenPattern "\\beval\\s*\\(")) := by
  obtain ⟨-, first, -, -⟩ := screen_names_first "eval(PROTOTYPE javascript:)"
  obtain ⟨-, -, least, ends⟩ := screen_names_first "a => Eval (1)"
  have wordless :
      ¬ ∃ word ∈ forbiddenWords, word.toList <:+: asciiLower "a => Eval (1)".toList := by
    decide +kernel
  have spells : Spells foldsTo "eval".toList "Eval".toList :=
    .cons (by decide) (.cons (by decide) (.cons (by decide) (.cons (by decide) .nil)))
  have called : Opens "eval" ['('] "a => Eval (1)".toList :=
    ⟨"a => ".toList, _, [' '], '(', "1)".toList, by decide +kernel,
      by unfold IsBoundary; decide +kernel, spells, by decide +kernel, by decide⟩
  have named := least wordless [] (.call "eval") _ rfl called nofun
  refine ⟨?_, named, ends {} _ (by decide +kernel) (by decide +kernel) named⟩
  obtain ⟨word, member, found, place, there, before⟩ :=
    first ⟨"prototype", by decide +kernel, by decide +kernel⟩
  have early :=
    (before "prototype" (by decide +kernel) 14 ⟨by decide +kernel, by decide +kernel⟩).1
  have only : ∀ word ∈ forbiddenWords, ∀ place < 15,
      word.toList <:+ asciiLower ("eval(PROTOTYPE javascript:)".toList.take place) →
        word = "prototype" := by
    decide +kernel
  rw [found, only word member place (Nat.lt_succ_of_le early) there.2]

end GuardedExpr
