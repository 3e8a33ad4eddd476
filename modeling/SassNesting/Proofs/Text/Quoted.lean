import Mathlib.Data.Nat.Digits.Defs
import SassNesting.Proofs.Text.Lines
import SassNesting.Text.Quoted

/-! # Quoted texts are read back

The escapes of two characters differ before either of them ends, so a quoted text tells which text
it quotes, and where it ends, whatever follows it (`quote_append_inj`). It stays on one line, since
a line feed is always escaped (`newline_notMem_quote`). -/

namespace SassNesting

namespace Text

/-! ## Hexadecimal digits -/

/-- The digits of `n` are those of `n / 16`, if it has more than one, and that of `n % 16`. -/
theorem toDigits_eq_append (n : Nat) :
    Nat.toDigits 16 n =
      (if n < 16 then [] else Nat.toDigits 16 (n / 16)) ++ [(n % 16).digitChar] := by
  by_cases h : n < 16
  · rw [if_pos h, Nat.toDigits_of_lt_base h, Nat.mod_eq_of_lt h, List.nil_append]
  · rw [if_neg h, Nat.toDigits_of_base_le (by decide) (Nat.not_lt.1 h)]

/-- Each character of the digits of a number is `d.digitChar` for a digit `d`. -/
theorem exists_digit_of_mem_toDigits {c : Char} {n : Nat} (h : c ∈ Nat.toDigits 16 n) :
    ∃ d < 16, c = d.digitChar := by
  induction n using Nat.strong_induction_on with
  | _ n ih =>
      rw [toDigits_eq_append, List.mem_append] at h
      rcases h with h | h
      · by_cases hn : n < 16
        · rw [if_pos hn] at h
          exact absurd h List.not_mem_nil
        · rw [if_neg hn] at h
          exact ih (n / 16) (by omega) h
      · exact ⟨n % 16, Nat.mod_lt n (by decide), List.mem_singleton.1 h⟩

/-- Different digits have different characters: `digitChar` is injective below sixteen. -/
theorem digitChar_inj {m n : Nat} (hm : m < 16) (hn : n < 16) (h : m.digitChar = n.digitChar) :
    m = n := by
  have hall : ∀ m < 16, ∀ n < 16, Nat.digitChar m = Nat.digitChar n → m = n := by decide
  exact hall m hm n hn h

/-- A number is determined by its digits: `m = n`. -/
theorem toDigits_inj {m n : Nat} (h : Nat.toDigits 16 m = Nat.toDigits 16 n) : m = n := by
  induction m using Nat.strong_induction_on generalizing n with
  | _ m ih =>
      rw [toDigits_eq_append m, toDigits_eq_append n] at h
      obtain ⟨hfront, hlast⟩ := List.append_inj' h rfl
      have hdigit : m % 16 = n % 16 :=
        digitChar_inj (Nat.mod_lt m (by decide)) (Nat.mod_lt n (by decide))
          (List.singleton_inj.1 hlast)
      -- Either number has digits in front of the last one, or neither has.
      by_cases hm : m < 16
      · by_cases hn : n < 16
        · omega
        · rw [if_pos hm, if_neg hn] at hfront
          exact absurd hfront.symm Nat.toDigits_ne_nil
      · by_cases hn : n < 16
        · rw [if_neg hm, if_pos hn] at hfront
          exact absurd hfront Nat.toDigits_ne_nil
        · rw [if_neg hm, if_neg hn] at hfront
          have hdiv : m / 16 = n / 16 := ih (m / 16) (by omega) hfront
          omega

/-- What stands between the digits of a number and the brace behind them is no brace, and no line
feed. -/
theorem notMem_toDigits (n : Nat) : '}' ∉ Nat.toDigits 16 n ∧ '\n' ∉ Nat.toDigits 16 n := by
  have hall : ∀ d < 16, Nat.digitChar d ≠ '}' ∧ Nat.digitChar d ≠ '\n' := by decide
  constructor
  · intro h
    obtain ⟨d, hd, hc⟩ := exists_digit_of_mem_toDigits h
    exact (hall d hd).1 hc.symm
  · intro h
    obtain ⟨d, hd, hc⟩ := exists_digit_of_mem_toDigits h
    exact (hall d hd).2 hc.symm

/-! ## Escapes -/

/-- The characters that are written as a backslash and a mark, each behind its mark. -/
def marks : List (Char × Char) :=
  [('"', '"'), ('\\', '\\'), ('n', '\n'), ('r', '\r'), ('t', '\t'), ('0', '\x00')]

/-- The three ways in which a character is written between quotes. -/
inductive Escaped : Char → Text → Prop where
  /-- The character itself, which is neither a quote nor a backslash nor a line feed. -/
  | shown {c : Char} : c ≠ '"' → c ≠ '\\' → c ≠ '\n' → Escaped c [c]
  /-- A backslash and a mark. -/
  | marked {mark c : Char} : (mark, c) ∈ marks → Escaped c ['\\', mark]
  /-- The digits of the code point, between braces. -/
  | coded {c : Char} : Escaped c ('\\' :: 'u' :: '{' :: (Nat.toDigits 16 c.toNat ++ ['}']))

/-- The text `escape c` is one of the three ways: `Escaped c (escape c)`. -/
theorem escaped_escape (c : Char) : Escaped c (escape c) := by
  unfold escape
  split
  case _ | _ | _ | _ | _ | _ => exact .marked (by decide)
  case _ hquote hbackslash hnewline _ _ _ =>
    by_cases h : isUnprintable c = true
    · rw [if_pos h]
      exact .coded
    · rw [if_neg h]
      exact .shown hquote hbackslash hnewline

/-- A `mark` stands for one character: `c = d`. -/
theorem eq_of_mem_marks {mark c d : Char} (hc : (mark, c) ∈ marks) (hd : (mark, d) ∈ marks) :
    c = d := by
  have hall : ∀ p ∈ marks, ∀ q ∈ marks, p.1 = q.1 → p.2 = q.2 := by decide
  exact hall _ hc _ hd rfl

/-- A `mark` is neither that of a code point nor a line feed. -/
theorem mark_ne_of_mem_marks {mark c : Char} (h : (mark, c) ∈ marks) :
    mark ≠ 'u' ∧ mark ≠ '\n' := by
  have hall : ∀ p ∈ marks, p.1 ≠ 'u' ∧ p.1 ≠ '\n' := by decide
  exact hall _ h

namespace Escaped

variable {c d : Char} {s t rest more : Text}

/-- An escape `s` starts with a character other than a quote. -/
theorem append_ne_quote (h : Escaped c s) : s ++ rest ≠ '"' :: more := by
  intro heq
  cases h with
  | shown hquote _ _ => exact hquote (List.cons.inj heq).1
  | marked _ => exact absurd (List.cons.inj heq).1 (by decide)
  | coded => exact absurd (List.cons.inj heq).1 (by decide)

/-- The character that a text starts with in its escaped form, and what follows the escape, are
determined by the text: `c = d` and `rest = more`. -/
theorem append_inj (hc : Escaped c s) (hd : Escaped d t) (h : s ++ rest = t ++ more) :
    c = d ∧ rest = more := by
  -- The first two characters tell in which of the three ways a character is escaped.
  cases hc with
  | shown _ hbackslash _ =>
      cases hd with
      | shown _ _ _ => exact List.cons.inj h
      | marked _ => exact absurd (List.cons.inj h).1 hbackslash
      | coded => exact absurd (List.cons.inj h).1 hbackslash
  | @marked mark _ hmark =>
      cases hd with
      | shown _ hbackslash _ => exact absurd (List.cons.inj h).1.symm hbackslash
      | marked hother =>
          obtain ⟨hmarks, hrest⟩ := List.cons.inj (List.cons.inj h).2
          exact ⟨eq_of_mem_marks hmark (hmarks ▸ hother), hrest⟩
      | coded =>
          have hu : mark = 'u' := (List.cons.inj (List.cons.inj h).2).1
          exact absurd hu (mark_ne_of_mem_marks hmark).1
  | coded =>
      cases hd with
      | shown _ hbackslash _ => exact absurd (List.cons.inj h).1.symm hbackslash
      | marked hmark =>
          have hu := (List.cons.inj (List.cons.inj h).2).1
          exact absurd hu.symm (mark_ne_of_mem_marks hmark).1
      | coded =>
          have hdigits : Nat.toDigits 16 c.toNat ++ '}' :: rest =
              Nat.toDigits 16 d.toNat ++ '}' :: more := by
            simpa using h
          obtain ⟨hnumber, hrest⟩ :=
            append_cons_inj (notMem_toDigits _).1 (notMem_toDigits _).1 hdigits
          exact ⟨Char.toNat_inj.1 (toDigits_inj hnumber), hrest⟩

/-- An escape `s` stays on one line. -/
theorem newline_notMem (h : Escaped c s) : '\n' ∉ s := by
  intro hmem
  cases h with
  | shown _ _ hnewline => exact hnewline (List.mem_singleton.1 hmem).symm
  | @marked mark _ hmark =>
      have hmark' : '\n' = mark := by simpa using hmem
      exact (mark_ne_of_mem_marks hmark).2 hmark'.symm
  | coded =>
      have hdigits : '\n' ∈ Nat.toDigits 16 c.toNat := by simpa using hmem
      exact (notMem_toDigits c.toNat).2 hdigits

end Escaped

/-! ## Quoted texts -/

/-- Between quotes a text is written character by character, by `escape`. -/
theorem quote_append_eq (t rest : Text) :
    quote t ++ rest = '"' :: (t.flatMap escape ++ '"' :: rest) := by
  simp [quote]

/-- The text that a text starts with in its quoted form, and what follows the closing quote, are
determined by the text: `s = t` and `rest = more`. -/
theorem quote_append_inj {s t rest more : Text} (h : quote s ++ rest = quote t ++ more) :
    s = t ∧ rest = more := by
  rw [quote_append_eq, quote_append_eq] at h
  replace h := (List.cons.inj h).2
  -- The induction goes from escape to escape, with the closing quote at its end.
  induction s generalizing t with
  | nil =>
      cases t with
      | nil => exact ⟨rfl, (List.cons.inj h).2⟩
      | cons d t =>
          rw [List.flatMap_cons, List.append_assoc] at h
          exact absurd h.symm (escaped_escape d).append_ne_quote
  | cons c s ih =>
      cases t with
      | nil =>
          rw [List.flatMap_cons, List.append_assoc] at h
          exact absurd h (escaped_escape c).append_ne_quote
      | cons d t =>
          rw [List.flatMap_cons, List.flatMap_cons, List.append_assoc, List.append_assoc] at h
          obtain ⟨hchar, hrest⟩ := (escaped_escape c).append_inj (escaped_escape d) h
          obtain ⟨htext, hmore⟩ := ih hrest
          exact ⟨by rw [hchar, htext], hmore⟩

/-- Different texts are quoted differently: `quote` is injective. -/
theorem quote_inj {s t : Text} (h : quote s = quote t) : s = t := by
  have happend : quote s ++ [] = quote t ++ [] := by rw [h]
  exact (quote_append_inj happend).1

/-- A quoted text, `quote t`, stays on one line. -/
theorem newline_notMem_quote (t : Text) : '\n' ∉ quote t := by
  have hinside : '\n' ∉ t.flatMap escape := by
    intro h
    obtain ⟨c, -, hc⟩ := List.mem_flatMap.1 h
    exact (escaped_escape c).newline_notMem hc
  simp [quote, hinside]

end Text

end SassNesting
