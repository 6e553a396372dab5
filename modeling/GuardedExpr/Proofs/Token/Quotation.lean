import GuardedExpr.Proofs.Token.Escape
import GuardedExpr.Proofs.Token.Separator
import GuardedExpr.Text.Quoted

/-!
# Quoted texts

What stands between the quotes of a quoted text may stand in a string, and determines what
was quoted. In a string it means what was quoted if all its escapes are ones that strings
know. The escapes of a null character and of a code point mean something else there.
-/

namespace GuardedExpr

open Lexeme

/-! ## Hexadecimal digits -/

def hexDigits : List Char :=
  "0123456789abcdef".toList

theorem digitChar_mem_hexDigits : ∀ d < 16, Nat.digitChar d ∈ hexDigits := by
  decide

theorem digitChar_injective :
    ∀ d < 16, ∀ d' < 16, Nat.digitChar d = Nat.digitChar d' → d = d' := by
  decide

theorem mem_hexDigits_of_mem_toDigits {n : Nat} :
    ∀ c ∈ Nat.toDigits 16 n, c ∈ hexDigits := by
  induction n using Nat.strongRecOn with
  | ind n ih =>
    rw [Nat.toDigits_eq_if (by decide)]
    split
    case isTrue small => exact List.forall_mem_singleton.2 (digitChar_mem_hexDigits n small)
    case isFalse large =>
      have last := digitChar_mem_hexDigits (n % 16) (Nat.mod_lt n (by decide))
      exact List.forall_mem_append.2 ⟨ih (n / 16) (by omega),
        List.forall_mem_singleton.2 last⟩

theorem toDigits_sixteen_injective {m n : Nat} (h : Nat.toDigits 16 m = Nat.toDigits 16 n) :
    m = n := by
  induction m using Nat.strongRecOn generalizing n with
  | ind m ih =>
    have hm : m % 16 < 16 := Nat.mod_lt m (by decide)
    have hn : n % 16 < 16 := Nat.mod_lt n (by decide)
    have nonempty : ∀ k, Nat.toDigits 16 k ≠ [] := fun _ => Nat.toDigits_ne_nil
    rw [Nat.toDigits_eq_if (by decide), Nat.toDigits_eq_if (by decide) (n := n)] at h
    split at h
    case isTrue small =>
      split at h
      case isTrue small' =>
        exact digitChar_injective m small n small' (List.singleton_inj.1 h)
      case isFalse =>
        exact absurd (List.append_eq_singleton_iff.1 h.symm) (by simp [nonempty])
    case isFalse large =>
      split at h
      case isTrue => exact absurd (List.append_eq_singleton_iff.1 h) (by simp [nonempty])
      case isFalse =>
        obtain ⟨front, last⟩ := List.append_inj' h rfl
        have quotient := ih (m / 16) (by omega) front
        have rest := digitChar_injective _ hm _ hn (List.singleton_inj.1 last)
        omega

namespace Quoted

variable {c d letter : Char} {text other rest rest' : List Char}

/-! ## One character -/

theorem shortEscape?_injective (h : shortEscape? c = some letter)
    (h' : shortEscape? d = some letter) :
    c = d := by
  rw [shortEscape?.eq_def] at h h'
  split at h <;> split at h' <;> cases h <;> first | rfl | cases h'

theorem ne_of_shortEscape? (h : shortEscape? c = some letter) : letter ≠ 'u' := by
  rw [shortEscape?.eq_def] at h
  split at h <;> cases h <;> decide

/-- The escape that stands for a character by its code point. -/
def byCodePoint (c : Char) : List Char :=
  '\\' :: 'u' :: '\x7b' :: (Nat.toDigits 16 c.toNat ++ ['\x7d'])

/-- A character has a short escape, or it stands for itself, or it is
given by its code point. -/
theorem encodeChar_cases (c : Char) :
    (∃ letter, shortEscape? c = some letter ∧ encodeChar c = ['\\', letter]) ∨
      (c ≠ '\\' ∧ c ≠ '"' ∧ encodeChar c = [c]) ∨ encodeChar c = byCodePoint c := by
  rw [encodeChar]
  cases short : shortEscape? c with
  | some letter => exact .inl ⟨letter, rfl, rfl⟩
  | none =>
    refine .inr ?_
    show (_ ∧ _ ∧ (if isPlain c then [c] else _) = _) ∨ (if isPlain c then [c] else _) = _
    split
    case isTrue =>
      refine .inl ⟨?_, ?_, rfl⟩
      · rintro rfl
        cases short
      · rintro rfl
        cases short
    case isFalse => exact .inr rfl

theorem brace_notMem_toDigits (n : Nat) : '\x7d' ∉ Nat.toDigits 16 n :=
  fun member => absurd (mem_hexDigits_of_mem_toDigits _ member) (by decide)

theorem append_cons_inj_of_notMem {run run' : List Char} (h : d ∉ run) (h' : d ∉ run')
    (same : run ++ d :: rest = run' ++ d :: rest') : run = run' ∧ rest = rest' := by
  induction run generalizing run' with
  | nil =>
    cases run' with
    | nil => exact ⟨rfl, (List.cons.inj same).2⟩
    | cons c run' =>
      obtain ⟨rfl, -⟩ := List.cons.inj same
      exact absurd List.mem_cons_self h'
  | cons c run ih =>
    cases run' with
    | nil =>
      obtain ⟨rfl, -⟩ := List.cons.inj same
      exact absurd List.mem_cons_self h
    | cons c' run' =>
      obtain ⟨rfl, further⟩ := List.cons.inj same
      obtain ⟨rfl, behind⟩ :=
        ih (List.not_mem_of_not_mem_cons h) (List.not_mem_of_not_mem_cons h') further
      exact ⟨rfl, behind⟩

/-- What a character is quoted as does not go on in what another is quoted as. -/
theorem encodeChar_append_injective (h : encodeChar c ++ rest = encodeChar d ++ rest') :
    c = d ∧ rest = rest' := by
  rcases encodeChar_cases c with ⟨letter, short, encoded⟩ | ⟨hc, -, encoded⟩ | encoded
  · rw [encoded] at h
    rcases encodeChar_cases d with ⟨letter', short', encoded'⟩ | ⟨hd, -, encoded'⟩ | encoded'
    · rw [encoded'] at h
      obtain ⟨rfl, rfl⟩ := List.cons.inj (List.cons.inj h).2
      exact ⟨shortEscape?_injective short short', rfl⟩
    · rw [encoded'] at h
      exact absurd (List.cons.inj h).1.symm hd
    · rw [encoded'] at h
      exact absurd (List.cons.inj (List.cons.inj h).2).1 (ne_of_shortEscape? short)
  · rw [encoded] at h
    rcases encodeChar_cases d with ⟨letter', -, encoded'⟩ | ⟨-, -, encoded'⟩ | encoded'
    · rw [encoded'] at h
      exact absurd (List.cons.inj h).1 hc
    · rw [encoded'] at h
      exact List.cons.inj h
    · rw [encoded'] at h
      exact absurd (List.cons.inj h).1 hc
  · rw [encoded] at h
    rcases encodeChar_cases d with ⟨letter', short', encoded'⟩ | ⟨hd, -, encoded'⟩ | encoded'
    · rw [encoded'] at h
      exact absurd (List.cons.inj (List.cons.inj h).2).1.symm (ne_of_shortEscape? short')
    · rw [encoded'] at h
      exact absurd (List.cons.inj h).1.symm hd
    · rw [encoded'] at h
      have behind := (List.cons.inj (List.cons.inj (List.cons.inj h).2).2).2
      rw [List.append_eq, List.append_eq, List.append_assoc, List.append_assoc] at behind
      obtain ⟨digits, same⟩ :=
        append_cons_inj_of_notMem (brace_notMem_toDigits _) (brace_notMem_toDigits _) behind
      exact ⟨Char.toNat_inj.1 (toDigits_sixteen_injective digits), same⟩

/-! ## Whole texts -/

theorem encodeChar_ne_nil (c : Char) : encodeChar c ≠ [] := by
  rcases encodeChar_cases c with ⟨letter, -, encoded⟩ | ⟨-, -, encoded⟩ | encoded <;>
    rw [encoded] <;> exact List.cons_ne_nil _ _

theorem encode_injective (h : encode text = encode other) : text = other := by
  induction text generalizing other with
  | nil =>
    cases other with
    | nil => rfl
    | cons d other => exact absurd (List.append_eq_nil_iff.1 h.symm).1 (encodeChar_ne_nil d)
  | cons c text ih =>
    cases other with
    | nil => exact absurd (List.append_eq_nil_iff.1 h).1 (encodeChar_ne_nil c)
    | cons d other =>
      rw [encode_cons, encode_cons] at h
      obtain ⟨rfl, behind⟩ := encodeChar_append_injective h
      rw [ih behind]

theorem enclosed_append {run : List Char} {quote : Char}
    (plain : ∀ c ∈ run, c ≠ '\\' ∧ c ≠ quote) (h : Enclosed quote rest) :
    Enclosed quote (run ++ rest) := by
  induction run with
  | nil => exact h
  | cons c run ih =>
    obtain ⟨hc, others⟩ := List.forall_mem_cons.1 plain
    exact .plain hc.1 hc.2 (ih others)

/-- What stands between the quotes may stand in a string. -/
theorem enclosed_encode (text : List Char) : Enclosed '"' (encode text) := by
  induction text with
  | nil => exact .nil
  | cons c text ih =>
    rw [encode_cons]
    rcases encodeChar_cases c with ⟨letter, -, encoded⟩ | ⟨slash, quote, encoded⟩ | encoded
    · rw [encoded]
      exact .pair ih
    · rw [encoded]
      exact .plain slash quote ih
    · have digits : ∀ d ∈ '\x7b' :: (Nat.toDigits 16 c.toNat ++ ['\x7d']),
          d ≠ '\\' ∧ d ≠ '"' := by
        have hex : ∀ d ∈ hexDigits, d ≠ '\\' ∧ d ≠ '"' := by decide
        refine List.forall_mem_cons.2 ⟨by decide, List.forall_mem_append.2 ⟨?_, by decide⟩⟩
        exact fun d member => hex d (mem_hexDigits_of_mem_toDigits d member)
      rw [encoded]
      exact .pair (enclosed_append digits ih)

/-- Every character stands for itself or has one of the escapes that strings know. -/
def KnownEscapes (text : List Char) : Prop :=
  ∀ c ∈ text, encodeChar c = [c] ∨ c ∈ ['"', '\\', '\n', '\r', '\t']

instance (text : List Char) : Decidable (KnownEscapes text) :=
  List.decidableBAll _ text

theorem unescaped_encode (h : KnownEscapes text) : unescaped (encode text) = text := by
  induction text with
  | nil => rfl
  | cons c text ih =>
    obtain ⟨known, others⟩ := List.forall_mem_cons.1 h
    rw [encode_cons]
    rcases known with itself | escape
    · have plain : c ≠ '\\' := by
        rintro rfl
        cases itself
      rw [itself, List.singleton_append, unescaped_cons plain, ih others]
    · have meaning : ∀ c ∈ ['"', '\\', '\n', '\r', '\t'], ∀ rest,
          unescaped (encodeChar c ++ rest) = c :: unescaped rest := by
        simp only [List.forall_mem_cons]
        exact ⟨fun _ => rfl, fun _ => rfl, fun _ => rfl, fun _ => rfl, fun _ => rfl,
          List.forall_mem_nil _⟩
      rw [meaning c escape, ih others]

end Quoted

end GuardedExpr
