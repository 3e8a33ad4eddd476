import Mathlib.Data.List.Count
import SassNesting.Diagnostic

/-! # Places behind a front

A place in a text that is put behind another one moves by the bytes of the text in front of it, and
its line by the line feeds in front of it. -/

namespace SassNesting

namespace Text

/-- No line feed comes before the start of a text. -/
@[simp] theorem newlinesBefore_zero (t : Text) : newlinesBefore t 0 = 0 := by
  cases t with
  | nil => rfl
  | cons c t => rw [newlinesBefore_cons, if_neg (Nat.not_le.2 c.utf8Size_pos)]

/-- Before a place behind a `front` there are the line feeds of the front as well. -/
theorem newlinesBefore_append (front t : Text) (pos : Nat) :
    newlinesBefore (front ++ t) (byteSize front + pos) =
      front.count '\n' + newlinesBefore t pos := by
  induction front with
  | nil => simp
  | cons c front ih =>
      have hle : c.utf8Size ≤ byteSize (c :: front) + pos := by
        rw [byteSize_cons]
        omega
      have hrest : byteSize (c :: front) + pos - c.utf8Size = byteSize front + pos := by
        rw [byteSize_cons]
        omega
      rw [List.cons_append, newlinesBefore_cons, if_pos hle, hrest, ih, List.count_cons]
      by_cases hc : c = '\n'
      · simp [hc]
        omega
      · simp [hc]

/-- A place behind a `front` is as many lines further down as the front has line feeds. -/
theorem lineAt_append (front t : Text) (pos : Nat) :
    lineAt (front ++ t) (byteSize front + pos) = lineAt t pos + front.count '\n' := by
  rw [lineAt, newlinesBefore_append, lineAt]
  omega

/-- The line of the place behind a `front` is `1 + front.count '\n'`. -/
theorem lineAt_byteSize (front t : Text) :
    lineAt (front ++ t) (byteSize front) = 1 + front.count '\n' := by
  have hplace := lineAt_append front t 0
  rw [Nat.add_zero] at hplace
  rw [hplace, lineAt, newlinesBefore_zero, Nat.zero_add]

/-- A text can be cut behind a number of bytes in one way only: `front = front'` and `rest = rest'`.
-/
theorem append_inj_of_byteSize {front front' rest rest' : Text}
    (h : front ++ rest = front' ++ rest')
    (hsize : byteSize front = byteSize front') : front = front' ∧ rest = rest' := by
  induction front generalizing front' with
  | nil =>
      cases front' with
      | nil => exact ⟨rfl, h⟩
      | cons c front' =>
          have hpos := c.utf8Size_pos
          rw [byteSize_nil, byteSize_cons] at hsize
          omega
  | cons c front ih =>
      cases front' with
      | nil =>
          have hpos := c.utf8Size_pos
          rw [byteSize_nil, byteSize_cons] at hsize
          omega
      | cons d front' =>
          rw [List.cons_append, List.cons_append, List.cons.injEq] at h
          obtain ⟨rfl, htail⟩ := h
          rw [byteSize_cons, byteSize_cons, Nat.add_left_cancel_iff] at hsize
          obtain ⟨rfl, hrest⟩ := ih htail hsize
          exact ⟨rfl, hrest⟩

/-- The bytes before what is left of a text, `rest`, are those of the `front`. -/
@[simp] theorem offset_append (front rest : Text) :
    offset (front ++ rest) rest = byteSize front := by
  rw [offset, byteSize_append]
  omega

/-- In front of a text, a `front` adds its bytes to those before what is left of the text. -/
theorem offset_append_of_suffix {t rest : Text} (h : rest <:+ t) (front : Text) :
    offset (front ++ t) rest = byteSize front + offset t rest := by
  obtain ⟨before, rfl⟩ := h
  rw [← List.append_assoc, offset_append, offset_append, byteSize_append]

end Text

end SassNesting
