import GuardedExpr.Proofs.Token.Tiling

/-!
# Limits on a source

A scan without a bound on the number of tokens ends where the text does or where no
lexeme stands. The limits only cut such a scan off: the length before it starts, and
the number of tokens at the start of the first lexeme that is too many, whether or
not that one could be read.
-/

namespace GuardedExpr

/-- How a text is cut when nothing bounds the number of tokens. -/
inductive Scan where
  | complete (tokens : List Token)
  /-- Behind the tokens, at `start`, no lexeme stands. -/
  | stuck (tokens : List Token) (start : Nat) (fault : Fault)
deriving DecidableEq, Repr

namespace Scan

def cons (token : Token) : Scan → Scan
  | .complete tokens => .complete (token :: tokens)
  | .stuck tokens start fault => .stuck (token :: tokens) start fault

/-- Where the scan began to read a lexeme. -/
def starts : Scan → List Nat
  | .complete tokens => tokens.map Token.position
  | .stuck tokens start _ => tokens.map Token.position ++ [start]

/-- What comes of the scan of a text that ends at `stop`. -/
def result (stop : Nat) : Scan → Except Fault (List Token)
  | .complete tokens => .ok (tokens ++ [.endAt stop])
  | .stuck _ _ fault => .error fault

theorem starts_cons (token : Token) (scan : Scan) :
    (scan.cons token).starts = token.position :: scan.starts := by
  cases scan <;> rfl

theorem result_cons (token : Token) (stop : Nat) (scan : Scan) :
    (scan.cons token).result stop = (token :: ·) <$> scan.result stop := by
  cases scan <;> rfl

/-- What comes of the scan if it may have only so many tokens: it is given up where it
begins to read one more. -/
def capped (limit stop room : Nat) (scan : Scan) : Except Fault (List Token) :=
  match scan.starts[room]? with
  | some start => .error (.lex (.tooManyTokens limit) start)
  | none => scan.result stop

theorem capped_cons_succ (token : Token) (limit stop room : Nat) (scan : Scan) :
    (scan.cons token).capped limit stop (room + 1) =
      (token :: ·) <$> scan.capped limit stop room := by
  rw [capped, capped, starts_cons, List.getElem?_cons_succ, result_cons]
  split <;> rfl

theorem starts_complete_getElem? {tokens : List Token} {i : Nat} (h : i < tokens.length) :
    (complete tokens).starts[i]? = some tokens[i].position := by
  rw [starts, List.getElem?_map, List.getElem?_eq_getElem h, Option.map_some]

theorem starts_stuck_getElem? {tokens : List Token} {i : Nat} (h : i < tokens.length)
    (start : Nat) (fault : Fault) :
    (stuck tokens start fault).starts[i]? = some tokens[i].position := by
  have inside : i < (tokens.map Token.position).length := by rwa [List.length_map]
  rw [starts, List.getElem?_append_left inside]
  exact starts_complete_getElem? h

theorem starts_stuck_length (tokens : List Token) (start : Nat) (fault : Fault) :
    (stuck tokens start fault).starts[tokens.length]? = some start := by
  rw [starts, ← List.length_map Token.position, List.getElem?_concat_length]

end Scan

/-- Cuts a text as `scanFrom` does, into any number of tokens. -/
def scanFreely (source : List Char) : Nat → Nat → List Char → Scan
  | 0, _, _ => .complete []
  | fuel + 1, position, text =>
    let start := position + (text.takeWhile isBlank).length
    match text.dropWhile isBlank with
    | [] => .complete []
    | c :: rest =>
      match lexeme? c rest with
      | .error cause => .stuck [] start (cause.fault source start)
      | .ok lexeme =>
        (scanFreely source fuel (start + lexeme.source.length) lexeme.rest).cons
          (lexeme.spanAt start).token

/-- The scan of a source of at most `maxLength` characters, or the fault for
which it is not scanned. -/
def tokenizeFreely (source : String) (maxLength : Nat) : Except Fault Scan :=
  match checkSource { maxLength } source.toList with
  | .error fault => .error fault
  | .ok () => .ok (scanFreely source.toList source.length 0 source.toList)

/-- A scan with so much room is one without a bound that is cut off. -/
theorem scanFrom_eq_capped {limits : SourceLimits} {source text : List Char}
    {fuel room position : Nat} (hfuel : text.length ≤ fuel) :
    scanFrom limits source fuel room position text =
      (scanFreely source fuel position text).capped limits.maxTokens
        (position + text.length) room := by
  induction fuel generalizing room position text with
  | zero =>
    obtain rfl : text = [] := List.eq_nil_of_length_eq_zero (Nat.le_zero.1 hfuel)
    rfl
  | succ fuel ih =>
    have split : (text.takeWhile isBlank).length + (text.dropWhile isBlank).length =
        text.length := by
      rw [← List.length_append, List.takeWhile_append_dropWhile]
    rw [scanFrom, scanFreely]
    cases front : text.dropWhile isBlank with
    | nil =>
      rw [front, List.length_nil, Nat.add_zero] at split
      rw [split]
      rfl
    | cons c rest =>
      cases read : lexeme? c rest with
      | error cause => cases room <;> simp only [read] <;> rfl
      | ok lexeme =>
        have cut := Lexeme.cutFrom_lexeme? read
        have shorter : 0 < lexeme.source.length := List.length_pos_iff.2 cut.nonempty
        rw [front, cut.split, List.length_append] at split
        cases room with
        | zero =>
          simp only [read, Scan.capped, Scan.starts_cons]
          rfl
        | succ room =>
          simp only [read]
          rw [ih (by omega), Scan.capped_cons_succ, ← split, ← Nat.add_assoc,
            ← Nat.add_assoc]
          cases Scan.capped _ _ _ _ <;> rfl

section

variable {source : String} {maxLength maxTokens longer : Nat} {whole : Scan}

theorem tokenize_of_length_lt (long : maxLength < source.length) :
    tokenize source ⟨maxLength, maxTokens⟩ =
      .error (.lex (.tooLong maxLength) maxLength) := by
  rw [← String.length_toList] at long
  have refused : checkSource ⟨maxLength, maxTokens⟩ source.toList =
    .error (.lex (.tooLong maxLength) maxLength) := if_pos long
  rw [tokenize, refused]

/-- Every length that is enough is as good as another. -/
theorem tokenize_congr (short : source.length ≤ maxLength)
    (short' : source.length ≤ longer) :
    tokenize source ⟨longer, maxTokens⟩ = tokenize source ⟨maxLength, maxTokens⟩ := by
  rw [← String.length_toList] at short short'
  have same : checkSource ⟨longer, maxTokens⟩ source.toList =
      checkSource ⟨maxLength, maxTokens⟩ source.toList := by
    rw [checkSource, checkSource, if_neg (Nat.not_lt.2 short), if_neg (Nat.not_lt.2 short')]
  have scans : scan ⟨longer, maxTokens⟩ source.toList =
      scan ⟨maxLength, maxTokens⟩ source.toList := by
    rw [scan, scan, scanFrom_eq_capped (Nat.le_refl _), scanFrom_eq_capped (Nat.le_refl _)]
  rw [tokenize, tokenize, same, scans]

theorem tokenize_of_refused {fault : Fault}
    (free : tokenizeFreely source maxLength = .error fault) :
    tokenize source ⟨maxLength, maxTokens⟩ = .error fault := by
  rw [tokenizeFreely] at free
  split at free
  case h_1 _ refused =>
    cases free
    have same : checkSource ⟨maxLength, maxTokens⟩ source.toList = .error fault := refused
    rw [tokenize, same]
  case h_2 => cases free

/-- A bound on the tokens cuts off the scan. -/
theorem tokenize_of_scanned (free : tokenizeFreely source maxLength = .ok whole) :
    tokenize source ⟨maxLength, maxTokens⟩ =
      whole.capped maxTokens source.length maxTokens := by
  rw [tokenizeFreely] at free
  split at free
  case h_1 => cases free
  case h_2 _ checked =>
    cases free
    have same : checkSource ⟨maxLength, maxTokens⟩ source.toList = .ok () := checked
    rw [tokenize, same]
    show scanFrom _ source.toList source.toList.length maxTokens 0 source.toList = _
    rw [scanFrom_eq_capped (Nat.le_refl _), String.length_toList, Nat.zero_add]

theorem tokenize_of_few (free : tokenizeFreely source maxLength = .ok whole)
    (few : whole.starts.length ≤ maxTokens) :
    tokenize source ⟨maxLength, maxTokens⟩ = whole.result source.length := by
  rw [tokenize_of_scanned free, Scan.capped, List.getElem?_eq_none few]

theorem tokenize_of_many {start : Nat} (free : tokenizeFreely source maxLength = .ok whole)
    (next : whole.starts[maxTokens]? = some start) :
    tokenize source ⟨maxLength, maxTokens⟩ =
      .error (.lex (.tooManyTokens maxTokens) start) := by
  rw [tokenize_of_scanned free, Scan.capped, next]

end

/-- A source that is too long is refused at the limit, and for all others it does not
matter how much longer they could be. A fault found before the scan is the same for any
bound on the tokens. A scan that reaches the end gives the same tokens for every bound that
allows as many, and one that comes to a place where no lexeme stands the same fault for
every bound that allows more than the tokens in front of it. A lower bound refuses the
source at the start of the first lexeme beyond it. -/
theorem tokenize_limits (source : String) (maxLength maxTokens : Nat) :
    (maxLength < source.length →
      tokenize source ⟨maxLength, maxTokens⟩ =
        .error (.lex (.tooLong maxLength) maxLength)) ∧
    (source.length ≤ maxLength →
      (∀ longer, source.length ≤ longer →
        tokenize source ⟨longer, maxTokens⟩ = tokenize source ⟨maxLength, maxTokens⟩) ∧
      (∀ fault, tokenizeFreely source maxLength = .error fault →
        tokenize source ⟨maxLength, maxTokens⟩ = .error fault) ∧
      (∀ tokens, tokenizeFreely source maxLength = .ok (.complete tokens) →
        (tokens.length ≤ maxTokens →
          tokenize source ⟨maxLength, maxTokens⟩ = .ok (tokens ++ [.endAt source.length])) ∧
        ∀ many : maxTokens < tokens.length, tokenize source ⟨maxLength, maxTokens⟩ =
          .error (.lex (.tooManyTokens maxTokens) tokens[maxTokens].position)) ∧
      ∀ tokens start fault, tokenizeFreely source maxLength =
        .ok (.stuck tokens start fault) →
        (tokens.length < maxTokens → tokenize source ⟨maxLength, maxTokens⟩ = .error fault) ∧
        (maxTokens = tokens.length → tokenize source ⟨maxLength, maxTokens⟩ =
          .error (.lex (.tooManyTokens maxTokens) start)) ∧
        ∀ many : maxTokens < tokens.length, tokenize source ⟨maxLength, maxTokens⟩ =
          .error (.lex (.tooManyTokens maxTokens) tokens[maxTokens].position)) := by
  refine ⟨tokenize_of_length_lt, fun short => ⟨?_, fun fault => tokenize_of_refused, ?_, ?_⟩⟩
  · exact fun longer => tokenize_congr short
  · intro tokens free
    refine ⟨fun few => tokenize_of_few free ?_, fun many => ?_⟩
    · rwa [Scan.starts, List.length_map]
    · exact tokenize_of_many free (Scan.starts_complete_getElem? many)
  · intro tokens start fault free
    refine ⟨fun few => tokenize_of_few free ?_, ?_, fun many => ?_⟩
    · rwa [Scan.starts, List.length_append, List.length_map]
    · rintro rfl
      exact tokenize_of_many free (Scan.starts_stuck_length tokens start fault)
    · exact tokenize_of_many free (Scan.starts_stuck_getElem? many start fault)

-- The string is not closed. It is refused as the third token where two are allowed, and
-- for what it is where three are.
theorem tokenize_limits_unterminated :
    let tokens : List Token := [⟨.identifier, "a", 0⟩, ⟨.operator, "+", 2⟩]
    let fault : Fault := .lex .unterminatedString 4
    tokenizeFreely "a + 'b" 6 = .ok (.stuck tokens 4 fault) ∧
      tokenize "a + 'b" ⟨5, 3⟩ = .error (.lex (.tooLong 5) 5) ∧
      tokenize "a + 'b" ⟨6, 3⟩ = .error fault ∧ tokenize "a + 'b" ⟨7, 3⟩ = .error fault ∧
      tokenize "a + 'b" ⟨6, 2⟩ = .error (.lex (.tooManyTokens 2) 4) ∧
      tokenize "a + 'b" ⟨6, 1⟩ = .error (.lex (.tooManyTokens 1) 2) := by
  intro tokens fault
  have free : tokenizeFreely "a + 'b" 6 = .ok (.stuck tokens 4 fault) := by rfl
  obtain ⟨long, -⟩ := tokenize_limits "a + 'b" 5 3
  obtain ⟨-, three⟩ := tokenize_limits "a + 'b" 6 3
  obtain ⟨-, two⟩ := tokenize_limits "a + 'b" 6 2
  obtain ⟨-, one⟩ := tokenize_limits "a + 'b" 6 1
  obtain ⟨same, -, -, stuck⟩ := three (by decide)
  have refused := (stuck tokens 4 fault free).1 (by decide)
  exact ⟨free, long (by decide), refused, (same 7 (by decide)).trans refused,
    ((two (by decide)).2.2.2 tokens 4 fault free).2.1 rfl,
    ((one (by decide)).2.2.2 tokens 4 fault free).2.2 (by decide)⟩

end GuardedExpr
