import GuardedExpr.Proofs.Parse.Spacing

/-!
# Beginnings of phrases

Some tokens begin a phrase if others behind them complete it. What a rule of the grammar
puts in front of a phrase can stand in front of its beginnings as well, since what is open
behind them can be closed.

A parenthesis or index bracket that nothing closes yet is among the `unclosed` ones of the
tokens. A phrase closes all that it opens.
-/

namespace GuardedExpr

/-- The tokens `us` can be completed to a phrase of `category`, nested
at most `room` deep. -/
def Begins (category : Category) (room : Nat) (us : List Token) : Prop :=
  ∃ vs e, Derives category room (us ++ vs) e

section Phrases

variable {category : Category} {room : Nat} {us vs ws : List Token} {token : Token}
  {e : Expr}

theorem Derives.begins (h : Derives category room us e) : Begins category room us :=
  ⟨[], e, by rwa [List.append_nil]⟩

theorem begins_nil (category : Category) (room : Nat) : Begins category room [] :=
  ⟨[⟨.identifier, "x", 0⟩], _, Derives.of_primary (.identifier rfl) category⟩

namespace Begins

theorem loosen (hne : category ≠ .primary) (h : Begins category.tighter room us) :
    Begins category room us := by
  obtain ⟨vs, e, h⟩ := h
  exact ⟨vs, e, .tighter hne h⟩

theorem operand {op : BinaryOp} (hop : op ∈ category.level)
    (htoken : token.isOperator op.symbol = true) (hus : Derives category room us e)
    (hvs : Begins category.tighter room vs) :
    Begins category room (us ++ token :: vs) := by
  obtain ⟨ws, right, h⟩ := hvs
  refine ⟨ws, .binary op e right, ?_⟩
  rw [List.append_assoc, List.cons_append]
  exact .operation (Category.mem_level_iff.1 hop) htoken hus h

theorem unary {op : UnaryOp} (htoken : token.isOperator op.symbol = true)
    (hus : Begins .unary room us) : Begins .unary room (token :: us) := by
  obtain ⟨vs, e, h⟩ := hus
  cases op with
  | not => exact ⟨vs, .unary .not e, .not htoken h⟩
  | neg => exact ⟨vs, .unary .neg e, .neg htoken h⟩

theorem property (hdot : token.kind = .dot) (hus : Derives .access room us e) :
    Begins .access room (us ++ [token]) := by
  refine ⟨[⟨.identifier, "x", 0⟩], .member e "x", ?_⟩
  rw [List.append_assoc]
  exact .member hdot rfl hus

theorem key (hleft : token.kind = .leftBracket) (hus : Derives .access (room + 1) us e)
    (hvs : Begins .conditional room vs) : Begins .access (room + 1) (us ++ token :: vs) := by
  obtain ⟨ws, key, h⟩ := hvs
  refine ⟨ws ++ [⟨.rightBracket, "]", 0⟩], .index e key, ?_⟩
  rw [List.append_assoc, List.cons_append, ← List.append_assoc vs]
  exact .index hleft rfl hus h

theorem inner (hleft : token.kind = .leftParen) (hus : Begins .conditional room us) :
    Begins .primary (room + 1) (token :: us) := by
  obtain ⟨vs, e, h⟩ := hus
  refine ⟨vs ++ [⟨.rightParen, ")", 0⟩], e, ?_⟩
  rw [List.cons_append, ← List.append_assoc]
  exact .parens hleft rfl h

theorem alternate {colon : Token} {c : Expr} (hquestion : token.isOperator "?" = true)
    (hcolon : colon.kind = .colon) (hus : Derives .logicalOr (room + 1) us e)
    (hvs : Derives .conditional room vs c) (hws : Begins .conditional room ws) :
    Begins .conditional (room + 1) (us ++ token :: (vs ++ colon :: ws)) := by
  obtain ⟨more, a, h⟩ := hws
  refine ⟨more, .conditional e c a, ?_⟩
  rw [List.append_assoc, List.cons_append, List.append_assoc, List.cons_append]
  exact .choice hquestion hcolon hus hvs h

theorem consequent (hquestion : token.isOperator "?" = true)
    (hus : Derives .logicalOr (room + 1) us e) (hvs : Begins .conditional room vs) :
    Begins .conditional (room + 1) (us ++ token :: vs) := by
  obtain ⟨more, c, h⟩ := hvs
  refine ⟨more ++ [⟨.colon, ":", 0⟩, ⟨.identifier, "x", 0⟩],
    .conditional e c (.identifier "x"), ?_⟩
  rw [List.append_assoc, List.cons_append, ← List.append_assoc vs]
  exact .choice hquestion rfl hus h (Derives.of_primary (.identifier rfl) _)

end Begins

end Phrases

/-! ## Open parentheses and brackets -/

/-- What is still open behind one more token. The innermost comes first. -/
def track (opened : List Token) (token : Token) : List Token :=
  match token.kind with
  | .leftParen | .leftBracket => token :: opened
  | .rightParen | .rightBracket => opened.tail
  | _ => opened

/-- The parentheses and index brackets that are still open behind some tokens. -/
def unclosed (tokens : List Token) : List Token :=
  tokens.foldl track []

section Unclosed

variable {token : Token} {opened us vs : List Token}

theorem track_of_isOperator {symbol : String} (h : token.isOperator symbol = true) :
    track opened token = opened := by
  simp [track, Token.kind_of_isOperator h]

theorem Derives.foldl_track {category : Category} {room : Nat} {e : Expr}
    (h : Derives category room us e) : ∀ opened, us.foldl track opened = opened := by
  induction h with
  | tighter _ _ ih => exact ih
  | choice hquestion hcolon _ _ _ iht ihc iha =>
    intro opened
    rw [List.foldl_append, iht, List.foldl_cons, track_of_isOperator hquestion,
      List.foldl_append, ihc, List.foldl_cons, iha]
    simp [track, hcolon]
  | operation _ htoken _ _ ihl ihr =>
    intro opened
    rw [List.foldl_append, ihl, List.foldl_cons, track_of_isOperator htoken, ihr]
  | not htoken _ ih | neg htoken _ ih =>
    intro opened
    rw [List.foldl_cons, track_of_isOperator htoken, ih]
  | member hdot hname _ ih =>
    intro opened
    rw [List.foldl_append, ih]
    simp [track, hdot, hname]
  | index hleft hright _ _ ihe ihkey =>
    intro opened
    rw [List.foldl_append, ihe, List.foldl_cons, List.foldl_append, ihkey]
    simp [track, hleft, hright]
  | parens hleft hright _ ih =>
    intro opened
    rw [List.foldl_cons, List.foldl_append, ih]
    simp [track, hleft, hright]
  | number kind | string kind | boolean kind | null kind | identifier kind =>
    simp [track, kind]

theorem isPrefix_foldl_track (us opened outer : List Token) :
    us.foldl track opened <+: us.foldl track (opened ++ outer) := by
  induction us generalizing opened outer with
  | nil => exact List.prefix_append opened outer
  | cons token us ih =>
    have step : ∃ outer', track (opened ++ outer) token = track opened token ++ outer' := by
      rw [track, track]
      split
      · exact ⟨outer, rfl⟩
      · exact ⟨outer, rfl⟩
      · cases opened with
        | nil => exact ⟨outer.tail, rfl⟩
        | cons _ _ => exact ⟨outer, rfl⟩
      · cases opened with
        | nil => exact ⟨outer.tail, rfl⟩
        | cons _ _ => exact ⟨outer, rfl⟩
      · exact ⟨outer, rfl⟩
    obtain ⟨outer', step⟩ := step
    rw [List.foldl_cons, List.foldl_cons, step]
    exact ih _ _

/-- The innermost open one does not depend on what stands in front. -/
theorem head?_unclosed_append (h : (unclosed us).head? = some token) :
    (unclosed (vs ++ us)).head? = some token := by
  obtain ⟨outer, split⟩ := isPrefix_foldl_track us [] (unclosed vs)
  have whole : unclosed (vs ++ us) = unclosed us ++ outer := by
    rw [unclosed, List.foldl_append]
    exact split.symm
  rw [whole, List.head?_append, h]
  rfl

theorem head?_unclosed_cons {category : Category} {room : Nat} {e : Expr}
    (hopen : token.kind = .leftParen ∨ token.kind = .leftBracket)
    (h : Derives category room us e) :
    (unclosed (token :: us)).head? = some token := by
  have pushed : track [] token = [token] := by
    rcases hopen with hopen | hopen <;> simp [track, hopen]
  rw [unclosed, List.foldl_cons, h.foldl_track, pushed]
  rfl

end Unclosed

/-! ## What a fault is about -/

namespace ParseCause

/-- The token that a cause names as found, if it names one. It is `none` at
the end of the input. -/
def found? : ParseCause → Option (Option Token)
  | .trailing found | .missingColon found | .missingProperty found | .unmatchedBracket found
  | .unmatchedParen found | .unexpected found => some found
  | .emptyExpression | .invalidNumber _ | .nestedTooDeep _ | .tooManyActivations => none

/-- The kind of the token that a cause says is not closed. -/
def opener? : ParseCause → Option TokenKind
  | .unmatchedBracket _ => some .leftBracket
  | .unmatchedParen _ => some .leftParen
  | _ => none

end ParseCause

/-- A fault of parsing puts the blame on the token `next` at `place`, behind the tokens
`read`: it names no other token as found, and is reported at that place, or at the
innermost parenthesis or bracket still open there if that is what it says is not closed. -/
inductive Blames (read : List Token) (next : Option Token) (place : Nat) : Fault → Prop where
  | here {cause : ParseCause} :
      cause.opener? = none → (∀ found ∈ cause.found?, found = next) →
      Blames read next place (.parse cause place)
  | opener {cause : ParseCause} {token : Token} : cause.opener? = some token.kind →
      (unclosed read).head? = some token → (∀ found ∈ cause.found?, found = next) →
      Blames read next place (.parse cause token.position)

theorem Blames.behind {read : List Token} {next : Option Token} {place : Nat} {fault : Fault}
    (h : Blames read next place fault) (before : List Token) :
    Blames (before ++ read) next place fault := by
  cases h with
  | here own names => exact .here own names
  | opener kind inside names => exact .opener kind (head?_unclosed_append inside) names

end GuardedExpr
