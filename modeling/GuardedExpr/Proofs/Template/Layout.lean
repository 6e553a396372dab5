import GuardedExpr.Template

/-!
# The layout of a template

A layout is plain texts with placeholders between them. `Splits text layout` says which
layout a text has: each placeholder is the leftmost that can be closed on its line, and
ends with the first braces that close it. Every text has exactly one layout, and the pieces
of a template are those of its layout.
-/

namespace GuardedExpr.Template

/-- Plain texts, and between them the inner texts of placeholders. -/
inductive Layout where
  | last (plain : List Char)
  | hole (plain inner : List Char) (behind : Layout)
deriving DecidableEq, Repr

namespace Layout

/-- The inner texts of the placeholders, from left to right. -/
def inners : Layout → List (List Char)
  | .last _ => []
  | .hole _ inner behind => inner :: behind.inners

/-- The plain texts as they are, with values in the places of the placeholders. -/
def filled : Layout → (Nat → String) → List Char
  | .last plain, _ => plain
  | .hole plain _ behind, value =>
    plain ++ (value 0).toList ++ behind.filled fun i => value (i + 1)

def pieces : Layout → List Piece
  | .last plain => plain.map .verbatim
  | .hole plain inner behind => plain.map .verbatim ++ .placeholder inner :: behind.pieces

/-- The layout with one more character in front. -/
def cons (c : Char) : Layout → Layout
  | .last plain => .last (c :: plain)
  | .hole plain inner behind => .hole (c :: plain) inner behind

def ofPieces : List Piece → Layout
  | [] => .last []
  | .verbatim c :: pieces => (ofPieces pieces).cons c
  | .placeholder inner :: pieces => .hole [] inner (ofPieces pieces)

theorem ofPieces_map_verbatim_append (plain : List Char) (pieces : List Piece) :
    ofPieces (plain.map .verbatim ++ pieces) = plain.foldr cons (ofPieces pieces) := by
  induction plain with
  | nil => rfl
  | cons c plain ih => rw [List.map_cons, List.cons_append, ofPieces, ih, List.foldr_cons]

theorem foldr_cons_last (front plain : List Char) :
    front.foldr cons (.last plain) = .last (front ++ plain) := by
  induction front with
  | nil => rfl
  | cons c front ih => rw [List.foldr_cons, ih, cons, List.cons_append]

theorem foldr_cons_hole (front plain inner : List Char) (behind : Layout) :
    front.foldr cons (.hole plain inner behind) = .hole (front ++ plain) inner behind := by
  induction front with
  | nil => rfl
  | cons c front ih => rw [List.foldr_cons, ih, cons, List.cons_append]

/-- A layout can be read off its pieces. -/
theorem ofPieces_pieces (layout : Layout) : ofPieces layout.pieces = layout := by
  induction layout with
  | last plain =>
    have split := ofPieces_map_verbatim_append plain []
    rw [List.append_nil] at split
    rw [pieces, split, ofPieces, foldr_cons_last, List.append_nil]
  | hole plain inner behind ih =>
    rw [pieces, ofPieces_map_verbatim_append, ofPieces, ih, foldr_cons_hole, List.append_nil]

end Layout

/-! ## Where a placeholder stands -/

/-- A placeholder with this inner text, on one line, stands at the front of the text. -/
def Closes (text inner : List Char) : Prop :=
  '\n' ∉ inner ∧ '\x7b' :: '\x7b' :: (inner ++ ['\x7d', '\x7d']) <+: text

/-- The text has the layout. From the end of one placeholder to the start of the next
nothing can be closed on its line, and no shorter inner text closes the placeholder. -/
inductive Splits : List Char → Layout → Prop
  | last {plain : List Char} (none : ∀ place inner, ¬ Closes (plain.drop place) inner) :
      Splits plain (.last plain)
  | hole {text plain inner rest : List Char} {behind : Layout}
      (split : text = plain ++ '\x7b' :: '\x7b' :: (inner ++ '\x7d' :: '\x7d' :: rest))
      (line : '\n' ∉ inner)
      (leftmost : ∀ place < plain.length, ∀ other, ¬ Closes (text.drop place) other)
      (first : ∀ other, Closes (text.drop plain.length) other → inner.length ≤ other.length)
      (h : Splits rest behind) : Splits text (.hole plain inner behind)

/-- What is cut as the text up to the closing braces is on one line, in front of such
braces, and no shorter text is. -/
theorem upToClosing?_eq_some {text inner : List Char} (h : upToClosing? text = some inner) :
    '\n' ∉ inner ∧ inner ++ ['\x7d', '\x7d'] <+: text ∧
      ∀ other, other ++ ['\x7d', '\x7d'] <+: text → inner.length ≤ other.length := by
  fun_induction upToClosing? text generalizing inner with
  | case1 => cases h
  | case2 => cases h
  | case3 rest =>
    cases h
    exact ⟨List.not_mem_nil, List.prefix_append _ rest, fun _ _ => Nat.zero_le _⟩
  | case4 c rest notLine notClosing ih =>
    obtain ⟨further, found, rfl⟩ := Option.map_eq_some_iff.1 h
    obtain ⟨line, starts, first⟩ := ih found
    refine ⟨?_, (List.prefix_cons_inj c).2 starts, ?_⟩
    · rintro (_ | ⟨_, there⟩)
      · exact notLine rfl
      · exact line there
    · intro other hother
      cases other with
      | nil =>
        obtain ⟨behind, split⟩ := hother
        obtain ⟨rfl, rfl⟩ := List.cons.inj split
        exact absurd rfl (notClosing behind rfl)
      | cons d other =>
        exact Nat.succ_le_succ (first other (List.cons_prefix_cons.1 hother).2)

theorem upToClosing?_eq_none {text : List Char} (h : upToClosing? text = none)
    (inner : List Char) (line : '\n' ∉ inner) : ¬ inner ++ ['\x7d', '\x7d'] <+: text := by
  fun_induction upToClosing? text generalizing inner with
  | case1 =>
    intro starts
    have none := List.prefix_nil.1 starts
    exact absurd none (List.append_ne_nil_of_right_ne_nil inner (by simp))
  | case2 rest =>
    intro starts
    cases inner with
    | nil => cases (List.cons_prefix_cons.1 starts).1
    | cons c inner =>
      obtain ⟨rfl, -⟩ := List.cons_prefix_cons.1 starts
      exact line List.mem_cons_self
  | case3 => cases h
  | case4 c rest notLine notClosing ih =>
    intro starts
    have missed : upToClosing? rest = none := Option.map_eq_none_iff.1 h
    cases inner with
    | nil =>
      obtain ⟨behind, split⟩ := starts
      obtain ⟨rfl, rfl⟩ := List.cons.inj split
      exact absurd rfl (notClosing behind rfl)
    | cons d inner =>
      exact ih missed inner (fun there => line (List.mem_cons_of_mem d there))
        (List.cons_prefix_cons.1 starts).2

theorem placeholder?_eq_some {text inner : List Char} (h : placeholder? text = some inner) :
    Closes text inner ∧ ∀ other, Closes text other → inner.length ≤ other.length := by
  rw [placeholder?.eq_def] at h
  split at h
  case h_1 rest =>
    obtain ⟨line, starts, first⟩ := upToClosing?_eq_some h
    refine ⟨⟨line, ?_⟩, ?_⟩
    · exact (List.prefix_cons_inj _).2 ((List.prefix_cons_inj _).2 starts)
    · rintro other ⟨-, hother⟩
      exact first other ((List.prefix_cons_inj _).1 ((List.prefix_cons_inj _).1 hother))
  case h_2 => cases h

theorem placeholder?_eq_none {text : List Char} (h : placeholder? text = none)
    (inner : List Char) :
    ¬ Closes text inner := by
  rintro ⟨line, rest, rfl⟩
  exact upToClosing?_eq_none h inner line (List.prefix_append _ rest)

/-- The shortest text that closes a placeholder is the one that is found. -/
theorem placeholder?_of_closes {text inner : List Char} (h : Closes text inner)
    (first : ∀ other, Closes text other → inner.length ≤ other.length) :
    placeholder? text = some inner := by
  cases found : placeholder? text with
  | none => exact absurd h (placeholder?_eq_none found inner)
  | some other =>
    obtain ⟨hother, shortest⟩ := placeholder?_eq_some found
    have length : other.length = inner.length :=
      Nat.le_antisymm (shortest inner h) (first other hother)
    have same : other ++ ['\x7d', '\x7d'] = inner ++ ['\x7d', '\x7d'] := by
      have starts := List.prefix_of_prefix_length_le hother.2 h.2 (by simp [length])
      have equal := starts.eq_of_length (by simp [length])
      exact (List.cons.inj (List.cons.inj equal).2).2
    exact congrArg some (List.append_cancel_right same)

/-! ## The pieces of a layout -/

theorem piecesAfter_eq (taken : Nat) (text : List Char) :
    piecesAfter taken text = pieces (text.drop taken) := by
  induction text generalizing taken with
  | nil => rw [List.drop_nil, piecesAfter, pieces, piecesAfter]
  | cons c text ih =>
    cases taken with
    | zero => rfl
    | succ taken => rw [List.drop_succ_cons, ← ih, piecesAfter]

theorem pieces_of_closes {text inner rest : List Char} (h : placeholder? text = some inner)
    (split : text = '\x7b' :: '\x7b' :: (inner ++ '\x7d' :: '\x7d' :: rest)) :
    pieces text = .placeholder inner :: pieces rest := by
  subst split
  have behind :
      ('\x7b' :: (inner ++ '\x7d' :: '\x7d' :: rest)).drop (inner.length + 3) = rest := by
    rw [List.drop_succ_cons, ← List.drop_drop, List.drop_left]
    rfl
  conv => lhs; rw [pieces, piecesAfter, h]
  show .placeholder inner :: piecesAfter (inner.length + 3) _ = _
  rw [piecesAfter_eq, behind]

theorem pieces_of_not_closes {c : Char} {text : List Char}
    (h : ∀ inner, ¬ Closes (c :: text) inner) :
    pieces (c :: text) = .verbatim c :: pieces text := by
  have missed : placeholder? (c :: text) = none := by
    cases found : placeholder? (c :: text) with
    | none => rfl
    | some inner => exact absurd (placeholder?_eq_some found).1 (h inner)
  conv => lhs; rw [pieces, piecesAfter]
  rw [missed, piecesAfter_eq, List.drop_zero]

/-- Characters at which no placeholder stands are taken one by one. -/
theorem pieces_append {plain rest : List Char}
    (h : ∀ place < plain.length, ∀ inner, ¬ Closes ((plain ++ rest).drop place) inner) :
    pieces (plain ++ rest) = plain.map .verbatim ++ pieces rest := by
  induction plain with
  | nil => rfl
  | cons c plain ih =>
    have here : ∀ inner, ¬ Closes (c :: (plain ++ rest)) inner := h 0 (Nat.succ_pos _)
    rw [List.cons_append, pieces_of_not_closes here, List.map_cons, List.cons_append]
    rw [ih fun place hplace => h (place + 1) (Nat.succ_lt_succ hplace)]

theorem pieces_of_splits {text : List Char} {layout : Layout} (h : Splits text layout) :
    pieces text = layout.pieces := by
  induction h with
  | @last plain none =>
    have all := @pieces_append plain []
    rw [List.append_nil] at all
    rw [all fun place _ => none place, Layout.pieces]
    exact List.append_nil _
  | @hole text plain inner rest behind split line leftmost first h ih =>
    subst split
    rw [List.drop_left] at first
    have closes : Closes ('\x7b' :: '\x7b' :: (inner ++ '\x7d' :: '\x7d' :: rest)) inner :=
      ⟨line, rest, by simp⟩
    rw [pieces_append leftmost, pieces_of_closes (placeholder?_of_closes closes first) rfl,
      ih, Layout.pieces]

theorem splits_cons {c : Char} {text : List Char} {layout : Layout} (h : Splits text layout)
    (here : ∀ inner, ¬ Closes (c :: text) inner) : Splits (c :: text) (layout.cons c) := by
  cases h with
  | last none =>
    refine .last fun place => ?_
    cases place with
    | zero => exact here
    | succ place => exact none place
  | hole split line leftmost first h =>
    subst split
    refine .hole rfl line ?_ first h
    intro place hplace
    cases place with
    | zero => exact here
    | succ place => exact leftmost place (Nat.lt_of_succ_lt_succ hplace)

theorem exists_splits (text : List Char) : ∃ layout, Splits text layout := by
  induction length : text.length using Nat.strongRecOn generalizing text with
  | ind n ih =>
    cases text with
    | nil =>
      refine ⟨.last [], .last ?_⟩
      rintro place inner ⟨-, starts⟩
      rw [List.drop_nil] at starts
      cases List.prefix_nil.1 starts
    | cons c text =>
      rw [List.length_cons] at length
      cases found : placeholder? (c :: text) with
      | none =>
        obtain ⟨layout, h⟩ := ih text.length (by omega) text rfl
        exact ⟨layout.cons c, splits_cons h (placeholder?_eq_none found)⟩
      | some inner =>
        obtain ⟨⟨line, rest, split⟩, first⟩ := placeholder?_eq_some found
        have shape :
            c :: text = [] ++ '\x7b' :: '\x7b' :: (inner ++ '\x7d' :: '\x7d' :: rest) := by
          rw [← split]
          simp
        have shorter := congrArg List.length shape
        simp only [List.length_append, List.length_cons, List.length_nil] at shorter
        obtain ⟨behind, h⟩ := ih rest.length (by omega) rest rfl
        exact ⟨.hole [] inner behind, .hole shape line (fun _ none => nomatch none) first h⟩

/-- A text has exactly one layout. -/
theorem splits_iff {text : List Char} {layout : Layout} :
    Splits text layout ↔ layout = Layout.ofPieces (pieces text) := by
  have unique : ∀ {layout}, Splits text layout → layout = Layout.ofPieces (pieces text) := by
    intro layout h
    rw [pieces_of_splits h, Layout.ofPieces_pieces]
  constructor
  · exact unique
  · rintro rfl
    obtain ⟨layout, h⟩ := exists_splits text
    exact unique h ▸ h

end GuardedExpr.Template
