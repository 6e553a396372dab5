import GuardedExpr.Proofs.Token.Longest
import GuardedExpr.Settings

/-!
# What a text of settings says

Each line of the text says nothing, sets a limit, or is refused. A limit is what the last
line that sets it says, whatever stands on the lines between, and the lines that are
refused are reported with their numbers and causes.
-/

namespace GuardedExpr

open Lexeme

/-- The text is digits, perhaps behind a plus sign, and the number they
make fits into 64 bits. -/
def IsCount (text : List Char) (n : Nat) : Prop :=
  ∃ digits, (text = digits ∨ text = '+' :: digits) ∧ IsDigits digits ∧
    Nat.ofDigitChars 10 digits 0 = n ∧ n < Nat.pow 2 64

theorem readNatural?_eq_some_iff {text : List Char} {n : Nat} :
    readNatural? text = some n ↔ IsCount text n := by
  have read : ∀ digits, (if !digits.isEmpty && digits.all Char.isDigit &&
      digitsValue digits < Nat.pow 2 64 then some (digitsValue digits) else none) = some n ↔
        IsDigits digits ∧ Nat.ofDigitChars 10 digits 0 = n ∧ n < Nat.pow 2 64 := by
    intro digits
    simp only [Bool.and_eq_true, Bool.not_eq_true', List.isEmpty_eq_false_iff,
      List.all_eq_true, decide_eq_true_eq, Option.ite_none_right_eq_some,
      Option.some.injEq]
    constructor
    · rintro ⟨⟨isDigits, fits⟩, rfl⟩
      exact ⟨isDigits, rfl, fits⟩
    · rintro ⟨isDigits, rfl, fits⟩
      exact ⟨⟨isDigits, fits⟩, rfl⟩
  rw [readNatural?, read]
  by_cases plus : text.head? = some '+'
  · obtain ⟨digits, rfl⟩ := List.head?_eq_some_iff.1 plus
    rw [if_pos plus, List.drop_one, List.tail_cons]
    constructor
    · intro h
      exact ⟨digits, .inr rfl, h⟩
    · rintro ⟨_, rfl | same, isDigits, count⟩
      · -- A plus sign is no digit.
        exact absurd (isDigits.2 '+' List.mem_cons_self) (by decide)
      · obtain rfl := (List.cons.inj same).2
        exact ⟨isDigits, count⟩
  · rw [if_neg plus]
    constructor
    · intro h
      exact ⟨text, .inl rfl, h⟩
    · rintro ⟨digits, rfl | rfl, isDigits, count⟩
      · exact ⟨isDigits, count⟩
      · exact absurd rfl plus

namespace Setting

theorem ofName?_eq_some_iff {name : String} {setting : Setting} :
    ofName? name = some setting ↔ setting.name = name := by
  constructor
  · intro h
    rw [ofName?] at h
    have found := List.find?_some h
    exact beq_iff_eq.1 found
  · rintro rfl
    exact ofName?_name setting

theorem name_injective {setting other : Setting} (h : setting.name = other.name) :
    setting = other := by
  have found := ofName?_name setting
  rw [h, ofName?_name] at found
  exact (Option.some.inj found).symm

end Setting

namespace Settings

variable {settings : Settings} {setting : Setting} {cause : SettingFault} {line : List Char}
  {lines : List (List Char)} {number n m : Nat}

/-! ## One assignment -/

/-- An assignment sets the limit that it names, or it is refused and leaves all as it was. -/
theorem assign_cases (settings : Settings) (name value : String) :
    (∃ setting n, Setting.name setting = name ∧ IsCount value.toList n ∧
        assign name value settings = (.ok (), settings.update n setting)) ∨
      (∀ setting, Setting.name setting ≠ name) ∧
        assign name value settings = (.error (.unknown name), settings) ∨
      (∃ setting, Setting.name setting = name ∧ (∀ n, ¬ IsCount value.toList n) ∧
        assign name value settings = (.error (.notNatural name value), settings)) := by
  rw [assign]
  cases named : Setting.ofName? name with
  | none =>
    refine .inr (.inl ⟨?_, rfl⟩)
    rintro setting rfl
    rw [Setting.ofName?_name] at named
    cases named
  | some setting =>
    rw [Setting.ofName?_eq_some_iff] at named
    cases count : readNatural? value.toList with
    | none =>
      refine .inr (.inr ⟨setting, named, ?_, rfl⟩)
      intro n natural
      rw [readNatural?_eq_some_iff.2 natural] at count
      cases count
    | some n => exact .inl ⟨setting, n, named, readNatural?_eq_some_iff.1 count, rfl⟩

/-- An assignment changes the limit that it names and no other, or it is refused and changes
nothing. -/
theorem assign_frame (settings : Settings) (name value : String) :
    let (outcome, left) := assign name value settings
    (outcome = .ok () ∧ ∃ setting n, setting.name = name ∧ IsCount value.toList n ∧
        ∀ asked, left.value asked = if asked = setting then n else settings.value asked) ∨
      ((∃ cause, outcome = .error cause) ∧ left = settings ∧
        ¬ ∃ setting n, Setting.name setting = name ∧ IsCount value.toList n) := by
  rcases settings.assign_cases name value with
    ⟨setting, n, named, count, ran⟩ | ⟨unknown, ran⟩ | ⟨setting, named, unread, ran⟩
  · rw [ran]
    exact .inl ⟨rfl, setting, n, named, count, value_update settings n setting⟩
  · rw [ran]
    refine .inr ⟨⟨_, rfl⟩, rfl, ?_⟩
    rintro ⟨setting, -, named, -⟩
    exact unknown setting named
  · rw [ran]
    refine .inr ⟨⟨_, rfl⟩, rfl, ?_⟩
    rintro ⟨-, n, -, count⟩
    exact unread n count

/-- Nothing else comes of an assignment than what `set` says. -/
theorem assign_eq (settings : Settings) (name value : String) :
    assign name value settings =
      match settings.set name value with
      | .ok changed => (.ok (), changed)
      | .error cause => (.error cause, settings) := by
  rw [set]
  rcases settings.assign_cases name value with
    ⟨setting, n, -, -, ran⟩ | ⟨-, ran⟩ | ⟨setting, -, -, ran⟩
  all_goals rw [ran]

/-! ## One line -/

/-- The line, which is trimmed, is empty or a comment. -/
def SaysNothing (line : List Char) : Prop :=
  line = [] ∨ line.head? = some ';' ∨ line.head? = some '#'

/-- In front of the first `=` the line has this name, and behind it this value. White space
around them does not count. -/
def Assigns (line name value : List Char) : Prop :=
  ∃ front back, line = front ++ '=' :: back ∧ '=' ∉ front ∧ trim front = name ∧
    trim back = value

/-- The line sets the limit to the number. -/
def Sets (line : List Char) (setting : Setting) (n : Nat) : Prop :=
  ¬ SaysNothing line ∧ ∃ name value,
    Assigns line name value ∧ setting.name = String.ofList name ∧ IsCount value n

/-- The line says something and sets no limit. -/
def Bad (line : List Char) : Prop :=
  ¬ SaysNothing line ∧ ∀ setting n, ¬ Sets line setting n

/-- What is wrong with a line. -/
inductive Refuses (line : List Char) : SettingFault → Prop
  | notAssignment (without : '=' ∉ line) : Refuses line (.notAssignment (String.ofList line))
  | unknown {name value : List Char} (assigns : Assigns line name value)
      (unknown : ∀ setting : Setting, setting.name ≠ String.ofList name) :
      Refuses line (.unknown (String.ofList name))
  | notNatural {name value : List Char} {setting : Setting}
      (assigns : Assigns line name value)
      (named : setting.name = String.ofList name) (unread : ∀ n, ¬ IsCount value n) :
      Refuses line (.notNatural (String.ofList name) (String.ofList value))

theorem isIgnored_iff : isIgnored line = true ↔ SaysNothing line := by
  simp [isIgnored, SaysNothing, or_assoc]

theorem assigns_iff {name value : List Char} :
    Assigns line name value ↔ '=' ∈ line ∧ trim (line.takeWhile (· != '=')) = name ∧
      trim ((line.dropWhile (· != '=')).drop 1) = value := by
  have parts : ∀ {front : List Char} (back : List Char), '=' ∉ front →
      (front ++ '=' :: back).takeWhile (· != '=') = front ∧
        ((front ++ '=' :: back).dropWhile (· != '=')).drop 1 = back := by
    intro front back first
    have run : ∀ c ∈ front, (c != '=') = true := fun c there =>
      bne_iff_ne.2 (ne_of_mem_of_not_mem there first)
    have stop : ∀ c ∈ ('=' :: back).head?, (c != '=') = false := by simp
    rw [takeWhile_run run stop, dropWhile_run run stop]
    exact ⟨rfl, rfl⟩
  constructor
  · rintro ⟨front, back, rfl, first, named, valued⟩
    rw [(parts back first).1, (parts back first).2]
    exact ⟨List.mem_append_right front List.mem_cons_self, named, valued⟩
  · rintro ⟨there, named, valued⟩
    obtain ⟨front, back, rfl, first⟩ := List.eq_append_cons_of_mem there
    rw [(parts back first).1] at named
    rw [(parts back first).2] at valued
    exact ⟨front, back, rfl, first, named, valued⟩

theorem Assigns.unique {name name' value value' : List Char} (h : Assigns line name value)
    (h' : Assigns line name' value') : name = name' ∧ value = value' := by
  obtain ⟨-, rfl, rfl⟩ := assigns_iff.1 h
  obtain ⟨-, rfl, rfl⟩ := assigns_iff.1 h'
  exact ⟨rfl, rfl⟩

theorem Sets.unique {other : Setting} (h : Sets line setting n) (h' : Sets line other m) :
    setting = other ∧ n = m := by
  obtain ⟨-, name, value, assigns, named, count⟩ := h
  obtain ⟨-, name', value', assigns', named', count'⟩ := h'
  obtain ⟨rfl, rfl⟩ := assigns.unique assigns'
  refine ⟨Setting.name_injective (named.trans named'.symm), ?_⟩
  exact Option.some.inj
    ((readNatural?_eq_some_iff.2 count).symm.trans (readNatural?_eq_some_iff.2 count'))

theorem Refuses.not_sets (h : Refuses line cause) : ¬ Sets line setting n := by
  rintro ⟨-, name, value, assigns, named, count⟩
  cases h with
  | notAssignment without => exact without (assigns_iff.1 assigns).1
  | unknown assigns' unknown =>
    obtain ⟨rfl, -⟩ := assigns.unique assigns'
    exact unknown setting named
  | notNatural assigns' named' unread =>
    obtain ⟨-, rfl⟩ := assigns.unique assigns'
    exact unread n count

/-- A line is refused for one reason. -/
theorem Refuses.unique {other : SettingFault} (h : Refuses line cause)
    (h' : Refuses line other) :
    cause = other := by
  cases h with
  | notAssignment without =>
    cases h' with
    | notAssignment => rfl
    | unknown assigns => exact absurd (assigns_iff.1 assigns).1 without
    | notNatural assigns => exact absurd (assigns_iff.1 assigns).1 without
  | unknown assigns unknown =>
    cases h' with
    | notAssignment without => exact absurd (assigns_iff.1 assigns).1 without
    | unknown assigns' =>
      obtain ⟨rfl, -⟩ := assigns.unique assigns'
      rfl
    | notNatural assigns' named =>
      obtain ⟨rfl, -⟩ := assigns.unique assigns'
      exact absurd named (unknown _)
  | notNatural assigns named unread =>
    cases h' with
    | notAssignment without => exact absurd (assigns_iff.1 assigns).1 without
    | unknown assigns' unknown =>
      obtain ⟨rfl, -⟩ := assigns.unique assigns'
      exact absurd named (unknown _)
    | notNatural assigns' =>
      obtain ⟨rfl, rfl⟩ := assigns.unique assigns'
      rfl

theorem applyLine_of_assigns {name value : List Char} (h : Assigns line name value) :
    applyLine line = assign (String.ofList name) (String.ofList value) := by
  obtain ⟨there, rfl, rfl⟩ := assigns_iff.1 h
  rw [applyLine, if_pos (List.contains_iff_mem.2 there)]

/-- A line that says something sets a limit, or it is refused and changes nothing. -/
theorem applyLine_cases (settings : Settings) (speaks : ¬ SaysNothing line) :
    (∃ setting n, Sets line setting n ∧
        applyLine line settings = (.ok (), settings.update n setting)) ∨
      ∃ cause, Refuses line cause ∧ applyLine line settings = (.error cause, settings) := by
  by_cases there : '=' ∈ line
  · obtain ⟨name, value, assigns⟩ : ∃ name value, Assigns line name value :=
      ⟨_, _, assigns_iff.2 ⟨there, rfl, rfl⟩⟩
    rw [applyLine_of_assigns assigns]
    rcases settings.assign_cases (String.ofList name) (String.ofList value) with
      ⟨setting, n, named, count, ran⟩ | ⟨unknown, ran⟩ | ⟨setting, named, unread, ran⟩
    · rw [String.toList_ofList] at count
      exact .inl ⟨setting, n, ⟨speaks, name, value, assigns, named, count⟩, ran⟩
    · exact .inr ⟨_, .unknown assigns unknown, ran⟩
    · rw [String.toList_ofList] at unread
      exact .inr ⟨_, .notNatural assigns named unread, ran⟩
  · refine .inr ⟨_, .notAssignment there, ?_⟩
    rw [applyLine, if_neg (mt List.contains_iff_mem.1 there)]
    rfl

theorem bad_iff : Bad line ↔ ¬ SaysNothing line ∧ ∃ cause, Refuses line cause := by
  constructor
  · rintro ⟨speaks, silent⟩
    rcases applyLine_cases {} speaks with ⟨setting, n, sets, -⟩ | ⟨cause, refused, -⟩
    · exact absurd sets (silent setting n)
    · exact ⟨speaks, cause, refused⟩
  · rintro ⟨speaks, cause, refused⟩
    exact ⟨speaks, fun _ _ => refused.not_sets⟩

/-! ## All lines -/

theorem linesOf_eq_splitOn (text : List Char) : linesOf text = text.splitOn '\n' := by
  induction text with
  | nil => rw [linesOf, List.splitOn_nil]
  | cons c text ih =>
    rw [List.splitOn_cons_eq_if_modifyHead]
    by_cases newline : c = '\n'
    · subst newline
      rw [if_pos (beq_self_eq_true '\n'), linesOf, ih]
    · rw [if_neg (mt beq_iff_eq.1 newline), linesOf.eq_3 c text newline, ih]
      cases split : text.splitOn '\n' with
      | nil => exact absurd split (List.splitOn_ne_nil _ _)
      | cons line lines => rfl

theorem applyLines_nil (number : Nat) (settings : Settings) :
    applyLines number [] settings = ([], settings) := rfl

/-- What a line does: nothing, or it sets a limit for the lines behind
it, or it is reported. -/
theorem applyLines_cons_cases (settings : Settings) (number : Nat) (line : List Char)
    (lines : List (List Char)) :
    (SaysNothing (trim line) ∧
        applyLines number (line :: lines) settings =
          applyLines (number + 1) lines settings) ∨
      (∃ setting n, Sets (trim line) setting n ∧ applyLines number (line :: lines) settings =
        applyLines (number + 1) lines (settings.update n setting)) ∨
      ∃ cause, ¬ SaysNothing (trim line) ∧ Refuses (trim line) cause ∧
        applyLines number (line :: lines) settings =
          let (faults, final) := applyLines (number + 1) lines settings
          (⟨number, cause⟩ :: faults, final) := by
  rw [applyLines]
  by_cases nothing : SaysNothing (trim line)
  · rw [if_pos (isIgnored_iff.2 nothing)]
    exact .inl ⟨nothing, rfl⟩
  · rw [if_neg (mt isIgnored_iff.1 nothing)]
    have run : ∀ {outcome : Except SettingFault Unit} {left : Settings}
        (f : Except SettingFault Unit → StateM Settings (List LineFault)),
        applyLine (trim line) settings = (outcome, left) →
          ((applyLine (trim line)).run >>= f) settings = f outcome left := by
      intro outcome left f ran
      show f (applyLine (trim line) settings).1 (applyLine (trim line) settings).2 = _
      rw [ran]
    rcases settings.applyLine_cases nothing with
      ⟨setting, n, sets, ran⟩ | ⟨cause, refused, ran⟩
    · exact .inr (.inl ⟨setting, n, sets, run _ ran⟩)
    · exact .inr (.inr ⟨cause, nothing, refused, run _ ran⟩)

/-- The number is what the last line that sets the limit says, or
`before` if no line does. -/
def LastSet (lines : List (List Char)) (setting : Setting) (before n : Nat) : Prop :=
  (∃ above line below, lines = above ++ line :: below ∧ Sets line setting n ∧
      ∀ later ∈ below, ∀ m, ¬ Sets later setting m) ∨
    (∀ line ∈ lines, ∀ m, ¬ Sets line setting m) ∧ n = before

namespace LastSet

variable {before : Nat}

theorem cons_of_sets (h : Sets line setting n) (rest : LastSet lines setting n m) :
    LastSet (line :: lines) setting before m := by
  rcases rest with ⟨above, last, below, rfl, sets, later⟩ | ⟨silent, rfl⟩
  · exact .inl ⟨line :: above, last, below, rfl, sets, later⟩
  · exact .inl ⟨[], line, lines, rfl, h, silent⟩

theorem cons_of_not_sets (h : ∀ n, ¬ Sets line setting n)
    (rest : LastSet lines setting before m) :
    LastSet (line :: lines) setting before m := by
  rcases rest with ⟨above, last, below, rfl, sets, later⟩ | ⟨silent, rfl⟩
  · exact .inl ⟨line :: above, last, below, rfl, sets, later⟩
  · exact .inr ⟨List.forall_mem_cons.2 ⟨h, silent⟩, rfl⟩

end LastSet

theorem lastSet_applyLines (settings : Settings) (number : Nat) (lines : List (List Char))
    (setting : Setting) :
    LastSet (lines.map trim) setting (settings.value setting)
      ((applyLines number lines settings).2.value setting) := by
  induction lines generalizing settings number with
  | nil => exact .inr ⟨nofun, rfl⟩
  | cons line lines ih =>
    rw [List.map_cons]
    rcases settings.applyLines_cons_cases number line lines with
      ⟨nothing, ran⟩ | ⟨changed, n, sets, ran⟩ | ⟨cause, -, refused, ran⟩
    · rw [ran]
      exact .cons_of_not_sets (fun _ sets => sets.1 nothing) (ih settings _)
    · have rest := ih (settings.update n changed) (number + 1)
      rw [value_update] at rest
      rw [ran]
      by_cases same : setting = changed
      · subst same
        rw [if_pos rfl] at rest
        exact .cons_of_sets sets rest
      · rw [if_neg same] at rest
        exact .cons_of_not_sets (fun _ other => same (other.unique sets).1) rest
    · rw [ran]
      exact .cons_of_not_sets (fun _ => refused.not_sets) (ih settings _)

theorem exists_getElem?_cons_iff {α : Type} {a : α} {as : List α} {p : α → Prop} {k : Nat} :
    (∃ i b, (a :: as)[i]? = some b ∧ k = number + i ∧ p b) ↔
      k = number ∧ p a ∨ ∃ i b, as[i]? = some b ∧ k = number + 1 + i ∧ p b := by
  constructor
  · rintro ⟨i, b, at_i, place, holds⟩
    cases i with
    | zero =>
      cases at_i
      exact .inl ⟨place, holds⟩
    | succ i => exact .inr ⟨i, b, at_i, by omega, holds⟩
  · rintro (⟨place, holds⟩ | ⟨i, b, at_i, place, holds⟩)
    · exact ⟨0, a, rfl, place, holds⟩
    · exact ⟨i + 1, b, at_i, by omega, holds⟩

theorem mem_faults_applyLines_iff {fault : LineFault} :
    fault ∈ (applyLines number lines settings).1 ↔
      ∃ i line, (lines.map trim)[i]? = some line ∧ fault.line = number + i ∧
        ¬ SaysNothing line ∧ Refuses line fault.cause := by
  induction lines generalizing settings number with
  | nil => simp [applyLines_nil]
  | cons line lines ih =>
    rw [List.map_cons, exists_getElem?_cons_iff]
    rcases settings.applyLines_cons_cases number line lines with
      ⟨nothing, ran⟩ | ⟨changed, n, sets, ran⟩ | ⟨cause, speaks, refused, ran⟩
    · rw [ran, ih]
      exact ⟨.inr, fun h => h.resolve_left fun here => here.2.1 nothing⟩
    · rw [ran, ih]
      exact ⟨.inr, fun h => h.resolve_left fun here => here.2.2.not_sets sets⟩
    · rw [ran]
      show fault ∈ _ :: (applyLines (number + 1) lines settings).1 ↔ _
      rw [List.mem_cons, ih]
      refine or_congr_left ⟨?_, ?_⟩
      · rintro rfl
        exact ⟨rfl, speaks, refused⟩
      · rintro ⟨rfl, -, refused'⟩
        rw [refused.unique refused']

theorem mem_lines_faults_applyLines_iff {k : Nat} :
    k ∈ (applyLines number lines settings).1.map LineFault.line ↔
      ∃ i line, (lines.map trim)[i]? = some line ∧ k = number + i ∧ Bad line := by
  rw [List.mem_map]
  constructor
  · rintro ⟨fault, reported, rfl⟩
    obtain ⟨i, line, at_i, place, speaks, refused⟩ := mem_faults_applyLines_iff.1 reported
    exact ⟨i, line, at_i, place, bad_iff.2 ⟨speaks, _, refused⟩⟩
  · rintro ⟨i, line, at_i, place, bad⟩
    obtain ⟨speaks, cause, refused⟩ := bad_iff.1 bad
    exact ⟨⟨k, cause⟩,
      mem_faults_applyLines_iff.2 ⟨i, line, at_i, place, speaks, refused⟩, rfl⟩

theorem pairwise_faults_applyLines :
    ((applyLines number lines settings).1.map LineFault.line).Pairwise (· < ·) := by
  induction lines generalizing settings number with
  | nil => exact List.Pairwise.nil
  | cons line lines ih =>
    rcases settings.applyLines_cons_cases number line lines with
      ⟨nothing, ran⟩ | ⟨changed, n, sets, ran⟩ | ⟨cause, speaks, refused, ran⟩
    · rw [ran]
      exact ih
    · rw [ran]
      exact ih
    · rw [ran]
      refine List.pairwise_cons.2 ⟨?_, ih⟩
      intro k later
      obtain ⟨fault, there, rfl⟩ := List.mem_map.1 later
      obtain ⟨i, -, -, place, -⟩ := mem_faults_applyLines_iff.1 there
      show number < fault.line
      omega

/-- Of a text, each limit is what the last line that sets it says, or its default. Every
line that says something and sets nothing is reported, once and in order, with its number
and with what is wrong. An assignment that is refused leaves the settings as they were, and
one that is accepted changes the limit that it names and no other. -/
theorem ofText_last_line_wins (text : String) :
    let lines := (text.toList.splitOn '\n').map trim
    let (settings, faults) := ofText text
    (∀ setting, LastSet lines setting (({} : Settings).value setting)
      (settings.value setting)) ∧ (faults.map LineFault.line).Pairwise (· < ·) ∧
      (∀ number, number ∈ faults.map LineFault.line ↔
        ∃ i line, lines[i]? = some line ∧ number = 1 + i ∧ Bad line) ∧
      (∀ fault ∈ faults, ∃ i line,
        lines[i]? = some line ∧ fault.line = 1 + i ∧ Refuses line fault.cause) ∧
      ∀ (current : Settings) (name value : String),
        let (outcome, left) := assign name value current
        (outcome = .ok () ∧ ∃ setting n, setting.name = name ∧ IsCount value.toList n ∧
            ∀ asked, left.value asked = if asked = setting then n else current.value asked) ∨
          ((∃ cause, outcome = .error cause) ∧ left = current ∧
            ¬ ∃ setting n, Setting.name setting = name ∧ IsCount value.toList n) := by
  rw [← linesOf_eq_splitOn]
  intro lines
  show (∀ setting, LastSet lines setting _ ((ofText text).1.value setting)) ∧ _
  refine ⟨lastSet_applyLines {} 1 _, pairwise_faults_applyLines,
    fun _ => mem_lines_faults_applyLines_iff, ?_, assign_frame⟩
  intro fault reported
  obtain ⟨i, line, at_i, place, -, refused⟩ := mem_faults_applyLines_iff.1 reported
  exact ⟨i, line, at_i, place, refused⟩

example : ofText "max_tokens = 7\r\n# note\nmax_tokens = +9\nmax_tokens = 9 9" =
    ({ maxTokens := 9 }, [⟨4, .notNatural "max_tokens" "9 9"⟩]) := by
  decide +kernel

end Settings

end GuardedExpr
