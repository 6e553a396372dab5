import GuardedExpr.Proofs.Engine.Interpolation

/-!
# Templates of several lines

A placeholder stands on one line, so the placeholders of a template are those of its lines.
As long as none of them is one too many, a template is filled by filling its lines one
after the other, each with the engine that the ones in front of it left.
-/

namespace GuardedExpr

namespace Template

variable {text more : List Char}

/-- What starts a text and holds no line break starts the first line. -/
theorem isPrefix_of_isPrefix_line {part : List Char} (line : '\n' ∉ part)
    (starts : part <+: text ++ '\n' :: more) : part <+: text := by
  have first : text ++ ['\n'] <+: text ++ '\n' :: more :=
    (List.prefix_append_right_inj text).2 (List.prefix_append ['\n'] more)
  rcases List.prefix_or_prefix_of_prefix starts first with inside | beyond
  · rcases List.prefix_concat_iff.1 inside with rfl | inside
    · exact absurd (List.mem_concat_self) line
    · exact inside
  · exact absurd (beyond.subset List.mem_concat_self) line

/-- A line break closes no placeholder in front of it. -/
theorem closes_line_iff {inner : List Char} :
    Closes (text ++ '\n' :: more) inner ↔ Closes text inner := by
  constructor
  · rintro ⟨line, starts⟩
    refine ⟨line, isPrefix_of_isPrefix_line ?_ starts⟩
    simp [line]
  · rintro ⟨line, starts⟩
    exact ⟨line, starts.trans (List.prefix_append _ _)⟩

theorem pieces_newline (more : List Char) :
    pieces ('\n' :: more) = .verbatim '\n' :: pieces more := by
  refine pieces_of_not_closes fun inner closes => ?_
  have none := (@closes_line_iff [] more inner).1 closes
  cases List.prefix_nil.1 none.2

theorem pieces_line_of_splits {layout : Layout} (h : Splits text layout) :
    pieces (text ++ '\n' :: more) = layout.pieces ++ .verbatim '\n' :: pieces more := by
  induction h with
  | @last plain none =>
    rw [pieces_append, pieces_newline, Layout.pieces]
    intro place hplace inner closes
    rw [List.drop_append_of_le_length (Nat.le_of_lt hplace)] at closes
    exact none place inner (closes_line_iff.1 closes)
  | @hole text plain inner rest behind split line leftmost first h ih =>
    have closes : Closes (text.drop plain.length) inner := by
      rw [split, List.drop_left]
      exact ⟨line, rest, by simp⟩
    have found : placeholder? (text.drop plain.length ++ '\n' :: more) = some inner := by
      refine placeholder?_of_closes (closes_line_iff.2 closes) fun other hother => ?_
      exact first other (closes_line_iff.1 hother)
    have whole :
        text ++ '\n' :: more = plain ++ (text.drop plain.length ++ '\n' :: more) := by
      rw [split, List.drop_left, List.append_assoc]
    have regroup : text.drop plain.length ++ '\n' :: more =
        '\x7b' :: '\x7b' :: (inner ++ '\x7d' :: '\x7d' :: (rest ++ '\n' :: more)) := by
      rw [split, List.drop_left]
      simp
    rw [whole, pieces_append, pieces_of_closes found regroup, ih, Layout.pieces,
      List.append_assoc, List.cons_append]
    intro place hplace other hother
    have inside : place ≤ text.length := by
      rw [split, List.length_append]
      omega
    rw [← whole, List.drop_append_of_le_length inside] at hother
    exact leftmost place hplace other (closes_line_iff.1 hother)

/-- The pieces of a text are those of its lines, with the line breaks between them. -/
theorem pieces_line (text more : List Char) :
    pieces (text ++ '\n' :: more) = pieces text ++ .verbatim '\n' :: pieces more := by
  obtain ⟨layout, h⟩ := exists_splits text
  rw [pieces_line_of_splits h, pieces_of_splits h]

end Template

open Template

/-- How many placeholders there are among the pieces. -/
def holes (pieces : List Piece) : Nat :=
  (pieces.filterMap Piece.inner?).length

namespace Engine

variable {env : Surroundings} {raw : RawContext}

theorem settings_fill (room : Nat) (pieces : List Piece) (engine : Engine) :
    (fill env raw room pieces engine).2.settings = engine.settings := by
  have left : (fill env raw room pieces engine).2 =
      after env (fillings raw room pieces) engine := by
    rw [fill_eq]
    rfl
  rw [left]
  exact after_preserves (P := fun other => other.settings = engine.settings)
    (fun action other same => (settings_perform action other).trans same) _ rfl

/-- Room for all placeholders is as good as any more. -/
theorem fill_congr {room room' : Nat} {pieces : List Piece} (enough : holes pieces ≤ room)
    (enough' : holes pieces ≤ room') :
    fill env raw room pieces = fill env raw room' pieces := by
  have same : fillings raw room pieces = fillings raw room' pieces := by
    rw [fillings, fillings, List.take_of_length_le enough, List.take_of_length_le enough']
  rw [fill_eq, fill_eq, same]

/-- With room for all placeholders, pieces are filled one part after the other. -/
theorem fill_append {room : Nat} {front behind : List Piece}
    (enough : holes (front ++ behind) ≤ room) :
    fill env raw room (front ++ behind) = (do
      let upper ← fill env raw room front
      let lower ← fill env raw room behind
      return upper ++ lower) := by
  induction front generalizing room with
  | nil => cases room <;> simp [fill]
  | cons piece front ih =>
    cases piece with
    | verbatim c =>
      rw [List.cons_append, fill, ih enough, fill]
      simp
    | placeholder inner =>
      cases room with
      | zero => cases enough
      | succ room =>
        have fewer : holes (front ++ behind) ≤ room := Nat.le_of_succ_le_succ enough
        have few : holes behind ≤ room := by
          simp only [holes, List.filterMap_append, List.length_append] at fewer ⊢
          omega
        rw [List.cons_append, fill, ih fewer, fill, fill_congr few (Nat.le_succ_of_le few)]
        simp only [bind_assoc, pure_bind, List.append_assoc]

/-- The pieces of a template that is not cut are those above a line
break and those below it. -/
theorem pieces_template_line {settings : Settings} {above below : String}
    (fits : (above ++ "\n" ++ below).length ≤ settings.maxTemplateLength) :
    settings.pieces (above ++ "\n" ++ below) =
      settings.pieces above ++ .verbatim '\n' :: settings.pieces below := by
  have uncut : ∀ {template : String}, template.length ≤ settings.maxTemplateLength →
      settings.pieces template = pieces template.toList := by
    intro template short
    rw [← String.length_toList] at short
    rw [Settings.pieces, List.take_of_length_le short]
  have lengths := fits
  rw [String.length_append, String.length_append] at lengths
  rw [uncut fits, uncut (by omega), uncut (by omega), String.toList_append,
    String.toList_append, List.append_assoc]
  exact pieces_line above.toList below.toList

/-- A template of two lines, or more on either side of a line break, that is not too long
and has no placeholder too many: it is filled by filling what stands above the line break,
and then what stands below it with the engine that is left. -/
theorem interpolate_line (env : Surroundings) (raw : RawContext) (above below : String)
    (engine : Engine)
    (fits : (above ++ "\n" ++ below).length ≤ engine.settings.maxTemplateLength)
    {layout : Layout} (split : Splits (above ++ "\n" ++ below).toList layout)
    (few : layout.inners.length ≤ engine.settings.maxSubstitutions) :
    interpolate env raw (above ++ "\n" ++ below) engine = (do
      let upper ← interpolate env raw above
      let lower ← interpolate env raw below
      return upper ++ "\n" ++ lower) engine := by
  have enough : holes (engine.settings.pieces (above ++ "\n" ++ below)) ≤
      engine.settings.maxSubstitutions := by
    rw [← String.length_toList] at fits
    rwa [holes, Settings.pieces, List.take_of_length_le fits, pieces_of_splits split,
      filterMap_inner?_pieces]
  rw [pieces_template_line fits] at enough
  let upper :=
    fill env raw engine.settings.maxSubstitutions (engine.settings.pieces above) engine
  let lower :=
    fill env raw engine.settings.maxSubstitutions (engine.settings.pieces below) upper.2
  have whole : interpolate env raw (above ++ "\n" ++ below) engine =
      (String.ofList (upper.1 ++ '\n' :: lower.1), lower.2) := by
    show (String.ofList <$> fill env raw engine.settings.maxSubstitutions
      (engine.settings.pieces (above ++ "\n" ++ below))) engine = _
    rw [pieces_template_line fits, fill_append enough, fill]
    rfl
  have second : interpolate env raw below upper.2 = (String.ofList lower.1, lower.2) := by
    show (String.ofList <$> fill env raw upper.2.settings.maxSubstitutions
      (upper.2.settings.pieces below)) upper.2 = _
    rw [settings_fill]
    rfl
  show _ = ((String.ofList upper.1 ++ "\n" ++ (interpolate env raw below upper.2).1,
    (interpolate env raw below upper.2).2) : String × Engine)
  rw [whole, second]
  simp [String.ofList_append, String.append_assoc]

-- The braces left open above are not closed by those below.
theorem interpolate_line_dangling :
    let raw : RawContext := [("x", .text "1")]
    let engine := ofSettings {}
    let above := "<\x7b\x7bx\x7d\x7d|\x7b\x7b"
    let below := "\x7d\x7d\x7b\x7bx\x7d\x7d>"
    let layout : Layout :=
      .hole ['<'] ['x'] (.hole "|\x7b\x7b\n\x7d\x7d".toList ['x'] (.last ['>']))
    (above ++ "\n" ++ below).length ≤ engine.settings.maxTemplateLength ∧
      Splits (above ++ "\n" ++ below).toList layout ∧
      layout.inners.length ≤ engine.settings.maxSubstitutions ∧
      interpolate still raw (above ++ "\n" ++ below) engine = (do
        let upper ← interpolate still raw above
        let lower ← interpolate still raw below
        return upper ++ "\n" ++ lower) engine ∧
      (interpolate still raw above engine).1 = "<1|\x7b\x7b" ∧
      (interpolate still raw (above ++ "\n" ++ below) engine).1 =
        "<1|\x7b\x7b\n\x7d\x7d1>" := by
  have split :
      Splits ("<\x7b\x7bx\x7d\x7d|\x7b\x7b" ++ "\n" ++ "\x7d\x7d\x7b\x7bx\x7d\x7d>").toList
        (.hole ['<'] ['x'] (.hole "|\x7b\x7b\n\x7d\x7d".toList ['x'] (.last ['>']))) := by
    rw [splits_iff, String.toList_append, String.toList_append]
    rfl
  exact ⟨by decide, split, by decide,
    interpolate_line still _ _ _ _ (by decide) split (by decide),
    by decide +kernel, by decide +kernel⟩

end Engine

end GuardedExpr
