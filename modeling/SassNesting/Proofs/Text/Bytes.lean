import Mathlib.Data.List.Infix
import SassNesting.Proofs.Text.Position

/-! # Lines counted in bytes

A place is a number of bytes, while its line is found among the characters that lie wholly before
it. In UTF-8 a line feed is a byte of its own, which no other character contains, so counting that
byte before the place gives the same line (`line_locate`). A place inside a character or beyond the
end counts as the last boundary before it, which is found by going back byte by byte. -/

namespace SassNesting

namespace Text

/-! ## Bytes -/

/-- The bytes of the UTF-8 form of a text, in order. -/
def bytes (t : Text) : List UInt8 := t.toBytes.data.toList

/-- The byte of a line feed. -/
def newlineByte : UInt8 := 0x0A

theorem bytes_eq_flatMap (t : Text) : bytes t = t.flatMap String.utf8EncodeChar := by
  rw [bytes, toBytes, String.toUTF8_eq_toByteArray, String.toByteArray_ofList, List.utf8Encode,
    List.data_toByteArray, List.toList_toArray]

@[simp] theorem bytes_nil : bytes [] = [] := by
  rw [bytes_eq_flatMap, List.flatMap_nil]

@[simp] theorem bytes_cons (c : Char) (t : Text) :
    bytes (c :: t) = String.utf8EncodeChar c ++ bytes t := by
  rw [bytes_eq_flatMap, bytes_eq_flatMap, List.flatMap_cons]

/-- A text has as many bytes as its characters together: `byteSize t`. -/
@[simp] theorem length_bytes (t : Text) : (bytes t).length = byteSize t := by
  induction t with
  | nil => simp
  | cons c t ih => simp [ih]

/-- A number `n` with the highest of eight bits set is kept as a byte. -/
theorem le_toNat_ofNat {n : Nat} (hlow : 0x80 ≤ n) (hhigh : n < 0x100) :
    0x80 ≤ (UInt8.ofNat n).toNat := by
  rw [UInt8.toNat_ofNat', Nat.mod_eq_of_lt hhigh]
  exact hlow

/-- A byte of a character is its code point, if that is all there is, or one of several bytes, each
of which has its highest bit set: `0x80 ≤ b.toNat`. -/
theorem toNat_byte_cases (c : Char) :
    ∀ b ∈ String.utf8EncodeChar c, b.toNat = c.toNat ∨ 0x80 ≤ b.toNat := by
  intro b
  fun_cases String.utf8EncodeChar c with
  | case1 v hv =>
      intro hb
      obtain rfl := List.mem_singleton.1 hb
      rw [UInt8.toNat_ofNat', Nat.mod_eq_of_lt (by omega)]
      exact Or.inl rfl
  | case2 v =>
      simp only [List.mem_cons, List.not_mem_nil, or_false]
      rintro (rfl | rfl) <;> exact Or.inr (le_toNat_ofNat (by omega) (by omega))
  | case3 v =>
      simp only [List.mem_cons, List.not_mem_nil, or_false]
      rintro (rfl | rfl | rfl) <;> exact Or.inr (le_toNat_ofNat (by omega) (by omega))
  | case4 v =>
      simp only [List.mem_cons, List.not_mem_nil, or_false]
      rintro (rfl | rfl | rfl | rfl) <;> exact Or.inr (le_toNat_ofNat (by omega) (by omega))

/-- No character but the line feed contains `newlineByte`. -/
theorem newlineByte_notMem_utf8EncodeChar {c : Char} (hc : c ≠ '\n') :
    newlineByte ∉ String.utf8EncodeChar c := by
  intro hmem
  rcases toNat_byte_cases c newlineByte hmem with hcode | hhigh
  · exact hc (Char.toNat_inj.1 hcode.symm)
  · exact absurd hhigh (by decide)

/-- Among the first `pos` bytes of a character, if they are not all of them, there is no line feed.
-/
theorem newlineByte_notMem_take {c : Char} {pos : Nat} (h : pos < c.utf8Size) :
    newlineByte ∉ (String.utf8EncodeChar c).take pos := by
  by_cases hc : c = '\n'
  · subst hc
    have hpos : pos = 0 := by
      have hsize : '\n'.utf8Size = 1 := by decide
      omega
    simp [hpos]
  · exact fun hmem => newlineByte_notMem_utf8EncodeChar hc (List.mem_of_mem_take hmem)

/-- A line feed is one byte, and the other characters have no `newlineByte`. -/
theorem count_utf8EncodeChar (c : Char) :
    (String.utf8EncodeChar c).count newlineByte = if c = '\n' then 1 else 0 := by
  split
  · rename_i hc
    subst hc
    decide
  · rename_i hc
    exact List.count_eq_zero.2 (newlineByte_notMem_utf8EncodeChar hc)

/-- Before the place `pos` there are as many line feeds, `newlinesBefore t pos`, as bytes of a line
feed. -/
theorem count_take_bytes (t : Text) (pos : Nat) :
    ((bytes t).take pos).count newlineByte = newlinesBefore t pos := by
  -- Each character is taken as a whole, up to the one that does not fit any more.
  induction t generalizing pos with
  | nil => simp
  | cons c t ih =>
      have hlength := String.length_utf8EncodeChar c
      rw [bytes_cons, List.take_append, hlength, List.count_append, newlinesBefore_cons, ih]
      by_cases hfits : c.utf8Size ≤ pos
      · rw [if_pos hfits, List.take_of_length_le (hlength.trans_le hfits), count_utf8EncodeChar]
      · have hrest : pos - c.utf8Size = 0 := by omega
        rw [if_neg hfits, hrest, newlinesBefore_zero,
          List.count_eq_zero.2 (newlineByte_notMem_take (Nat.not_le.1 hfits))]

/-! ## Boundaries -/

/-- The place `pos` is that of a character, or the end of the text: a front of the text has so many
bytes. -/
def IsBoundary (t : Text) (pos : Nat) : Prop := ∃ front ∈ t.inits, byteSize front = pos

/-- The fronts of a text can be tried one by one. -/
instance decidableIsBoundary (t : Text) (pos : Nat) : Decidable (IsBoundary t pos) :=
  inferInstanceAs (Decidable (∃ front ∈ t.inits, byteSize front = pos))

/-- Goes back from a place, byte by byte, to the first boundary on the way. There is no byte before
the start of the text to go back over. -/
def backToBoundary? (t : Text) : Nat → Option Nat
  | 0 => if IsBoundary t 0 then some 0 else none
  | pos + 1 => if IsBoundary t (pos + 1) then some (pos + 1) else backToBoundary? t pos

/-- At a boundary there is nothing to go back: `backToBoundary? t pos = some pos`. -/
theorem backToBoundary?_of_isBoundary {t : Text} {pos : Nat} (h : IsBoundary t pos) :
    backToBoundary? t pos = some pos := by
  cases pos with
  | zero => rw [backToBoundary?, if_pos h]
  | succ pos => rw [backToBoundary?, if_pos h]

/-- From a place `pos + 1` that is no boundary one goes back to `pos`. -/
theorem backToBoundary?_succ {t : Text} {pos : Nat} (h : ¬ IsBoundary t (pos + 1)) :
    backToBoundary? t (pos + 1) = backToBoundary? t pos := by
  rw [backToBoundary?, if_neg h]

/-- A place inside a character `c`, `k` bytes behind its start, is no boundary. -/
theorem not_isBoundary_inside (front : Text) {c : Char} (rest : Text) {k : Nat} (hk : 0 < k)
    (hinside : k < c.utf8Size) : ¬ IsBoundary (front ++ c :: rest) (byteSize front + k) := by
  rintro ⟨other, hother, hsize⟩
  rw [List.mem_inits] at hother
  -- A front with so many bytes goes beyond `front`, and then it has the bytes of the character too.
  induction front generalizing other with
  | nil =>
      cases other with
      | nil =>
          rw [byteSize_nil] at hsize
          omega
      | cons d other =>
          obtain ⟨rfl, -⟩ := List.cons_prefix_cons.1 hother
          rw [byteSize_cons, byteSize_nil] at hsize
          omega
  | cons d front ih =>
      cases other with
      | nil =>
          rw [byteSize_nil] at hsize
          omega
      | cons e other =>
          obtain ⟨rfl, hfront⟩ := List.cons_prefix_cons.1 hother
          rw [byteSize_cons, byteSize_cons] at hsize
          have hsize' : byteSize other = byteSize front + k := by omega
          exact ih other hfront hsize'

/-- A text can be cut at the last boundary that is not behind `pos`: `k` bytes before it. -/
theorem exists_cut_at (t : Text) (pos : Nat) :
    ∃ front rest k, t = front ++ rest ∧ pos = byteSize front + k ∧
      ∀ c, rest.head? = some c → k < c.utf8Size := by
  induction t generalizing pos with
  | nil => exact ⟨[], [], pos, rfl, by simp, by simp⟩
  | cons c t ih =>
      by_cases hfits : c.utf8Size ≤ pos
      · obtain ⟨front, rest, k, rfl, hpos, hrest⟩ := ih (pos - c.utf8Size)
        refine ⟨c :: front, rest, k, rfl, ?_, hrest⟩
        rw [byteSize_cons]
        omega
      · refine ⟨[], c :: t, pos, rfl, by simp, ?_⟩
        intro d hd
        obtain rfl := Option.some.inj hd
        exact Nat.not_le.1 hfits

/-- From a place in the character behind a `front` one goes back to the end of the front. -/
theorem backToBoundary?_eq (front rest : Text) {k : Nat}
    (hinside : ∀ c, rest.head? = some c → k < c.utf8Size)
    (hk : byteSize front + k ≤ byteSize (front ++ rest)) :
    backToBoundary? (front ++ rest) (byteSize front + k) = some (byteSize front) := by
  induction k with
  | zero =>
      have hboundary : IsBoundary (front ++ rest) (byteSize front) :=
        ⟨front, (List.mem_inits _ _).2 (List.prefix_append front rest), rfl⟩
      exact backToBoundary?_of_isBoundary hboundary
  | succ k ih =>
      cases rest with
      | nil =>
          rw [List.append_nil] at hk
          omega
      | cons c rest =>
          have hc : k + 1 < c.utf8Size := hinside c rfl
          have hno : ¬ IsBoundary (front ++ c :: rest) (byteSize front + k + 1) :=
            not_isBoundary_inside front rest (Nat.succ_pos k) hc
          rw [← Nat.add_assoc, backToBoundary?_succ hno]
          refine ih ?_ (by omega)
          intro d hd
          exact Nat.lt_of_succ_lt (hinside d hd)

/-! ## Lines -/

/-- The line of a place `pos` never exceeds that of a `later` one. -/
theorem lineAt_mono (t : Text) {pos later : Nat} (h : pos ≤ later) :
    lineAt t pos ≤ lineAt t later := by
  rw [lineAt, lineAt, ← count_take_bytes, ← count_take_bytes]
  exact Nat.succ_le_succ ((List.take_prefix_take_left h).sublist.count_le _)

/-- The line of a place inside the character behind a `front` is that of the end of the front. -/
theorem lineAt_inside (front rest : Text) {k : Nat}
    (hinside : ∀ c, rest.head? = some c → k < c.utf8Size) :
    lineAt (front ++ rest) (byteSize front + k) = 1 + front.count '\n' := by
  have hnone : newlinesBefore rest k = 0 := by
    cases rest with
    | nil => rfl
    | cons c rest => rw [newlinesBefore_cons, if_neg (Nat.not_le.2 (hinside c rfl))]
  rw [lineAt, newlinesBefore_append, hnone]
  omega

end Text

/-- **The line that is told of a place**, for every number `pos` of bytes: one more than the line
feeds among the bytes before it, or among all bytes if the place is beyond the end. Going back from
there by `backToBoundary?` ends at a boundary, over no line feed, so that the line counts those of
the front of the text before the boundary. A later place is on no earlier line, and none is further
down than all line feeds. -/
theorem line_locate (source t expected : Text) (pos : Nat) :
    let line := fun place => (Diagnostic.locate source t expected place).line
    let stop := min pos (Text.bytes t).length
    line pos = 1 + ((Text.bytes t).take stop).count Text.newlineByte ∧
      (∃ front rest, t = front ++ rest ∧
        Text.backToBoundary? t stop = some (Text.byteSize front) ∧
        Text.byteSize front ≤ stop ∧
        ((Text.bytes t).take (Text.byteSize front)).count Text.newlineByte =
          ((Text.bytes t).take stop).count Text.newlineByte ∧
        line pos = 1 + front.count '\n') ∧
      (∀ later, pos ≤ later → line pos ≤ line later) ∧
      line pos ≤ 1 + (Text.bytes t).count Text.newlineByte := by
  intro line stop
  have hline : line pos = 1 + ((Text.bytes t).take stop).count Text.newlineByte := by
    rw [← List.take_eq_take_min, Text.count_take_bytes, Nat.add_comm]
    rfl
  refine ⟨hline, ?_, fun later hlater => Text.lineAt_mono t hlater, ?_⟩
  · obtain ⟨front, rest, k, rfl, hstop, hinside⟩ := Text.exists_cut_at t stop
    have hle : Text.byteSize front + k ≤ Text.byteSize (front ++ rest) := by
      rw [← hstop, ← Text.length_bytes]
      exact Nat.min_le_right _ _
    have hfront : line pos = 1 + front.count '\n' := by
      rw [hline, hstop, Text.count_take_bytes, Nat.add_comm]
      exact Text.lineAt_inside front rest hinside
    refine ⟨front, rest, rfl, ?_, ?_, ?_, hfront⟩
    · rw [hstop]
      exact Text.backToBoundary?_eq front rest hinside hle
    · rw [hstop]
      exact Nat.le_add_right _ _
    · -- Both counts are those of the line feeds of the front.
      have hcount := hline.symm.trans hfront
      rw [Text.count_take_bytes, ← Nat.add_zero (Text.byteSize front),
        Text.newlinesBefore_append, Text.newlinesBefore_zero]
      omega
  · rw [hline]
    exact Nat.add_le_add_left ((List.take_sublist stop _).count_le _) 1

/-- Inside the second character, which has three bytes, one goes back over two of them and counts
the line feed in front of it; far beyond the end the second line feed counts as well. -/
theorem line_locate_insideCharacter :
    (Diagnostic.locate [] "\n€\nx".toList [] 3).line = 2 ∧
      Text.backToBoundary? "\n€\nx".toList 3 = some 1 ∧
      (Diagnostic.locate [] "\n€\nx".toList [] 3).line ≤
        (Diagnostic.locate [] "\n€\nx".toList [] 18446744073709551615).line ∧
      (Diagnostic.locate [] "\n€\nx".toList [] 18446744073709551615).line = 3 := by
  obtain ⟨-, -, hmono, -⟩ := line_locate [] "\n€\nx".toList [] 3
  exact ⟨by decide +kernel, by decide +kernel, hmono _ (by decide), by decide +kernel⟩

end SassNesting
