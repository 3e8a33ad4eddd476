import Mathlib.Data.List.TakeWhile
import SassNesting.Selector

/-! # Words of a text

A text falls apart into its words, the runs without blanks, and blanks between them. Cutting a text
at a blank cuts its list of words, and trimming a text changes no word of it, so the words of a
selector can be followed through every way of putting selectors together. The main statement,
`words_eq_head_cons`, says that the first token of a selector and the words of its tail are all its
words. -/

namespace SassNesting

namespace Text

/-- A token: at least one character, and none of them blank. -/
structure IsToken (t : Text) : Prop where
  /-- There is a character. -/
  ne_nil : t ≠ []
  /-- No character is blank. -/
  not_blank : ∀ c ∈ t, isBlank c = false

/-! ## Cutting at blanks -/

@[simp] theorem words_nil : words [] = [] := by
  simp [words]

/-- A blank `c` parts the words before it from the words after it: `words s ++ words t`. -/
theorem words_append_blank {c : Char} (h : isBlank c = true) (s t : Text) :
    words (s ++ c :: t) = words s ++ words t := by
  simp [words, List.splitOnP_append_cons s t h]

/-- A blank `c` at the start belongs to no word. -/
@[simp] theorem words_cons_blank {c : Char} (h : isBlank c = true) (t : Text) :
    words (c :: t) = words t := by
  simpa using words_append_blank h [] t

/-- A token is its only word: `words t = [t]`. -/
theorem words_of_isToken {t : Text} (h : IsToken t) : words t = [t] := by
  simp [words, List.splitOnP_eq_singleton h.not_blank, h.ne_nil]

/-- Blanks alone have no word in them: `words t = []`. -/
theorem words_eq_nil_of_blank {t : Text} (h : ∀ c ∈ t, isBlank c = true) : words t = [] := by
  induction t with
  | nil => exact words_nil
  | cons c t ih =>
      rw [words_cons_blank (h c List.mem_cons_self)]
      exact ih fun d hd => h d (List.mem_cons_of_mem c hd)

/-- Blanks `s` at the start belong to no word. -/
theorem words_blank_append {s : Text} (h : ∀ c ∈ s, isBlank c = true) (t : Text) :
    words (s ++ t) = words t := by
  induction s with
  | nil => rfl
  | cons c s ih =>
      rw [List.cons_append, words_cons_blank (h c List.mem_cons_self)]
      exact ih fun d hd => h d (List.mem_cons_of_mem c hd)

/-- Blanks `t` at the end belong to no word. -/
theorem words_append_of_blank {t : Text} (h : ∀ c ∈ t, isBlank c = true) (s : Text) :
    words (s ++ t) = words s := by
  cases t with
  | nil => rw [List.append_nil]
  | cons c t =>
      have hrest : ∀ d ∈ t, isBlank d = true := fun d hd => h d (List.mem_cons_of_mem c hd)
      rw [words_append_blank (h c List.mem_cons_self), words_eq_nil_of_blank hrest,
        List.append_nil]

/-! ## Trimming -/

/-- A text is the blanks it starts with and `trimStart t`. -/
theorem exists_blank_append_trimStart (t : Text) :
    ∃ front, (∀ c ∈ front, isBlank c = true) ∧ t = front ++ trimStart t :=
  ⟨t.takeWhile isBlank, fun _ hc => List.mem_takeWhile_imp hc,
    List.takeWhile_append_dropWhile.symm⟩

/-- A text is `trimEnd t` and the blanks it ends with. -/
theorem exists_trimEnd_append_blank (t : Text) :
    ∃ back, (∀ c ∈ back, isBlank c = true) ∧ t = trimEnd t ++ back := by
  refine ⟨(t.reverse.takeWhile isBlank).reverse, fun c hc => ?_, ?_⟩
  · exact List.mem_takeWhile_imp (List.mem_reverse.1 hc)
  · rw [trimEnd, ← List.reverse_append, List.takeWhile_append_dropWhile, List.reverse_reverse]

/-- Trimming the start changes no word. -/
@[simp] theorem words_trimStart (t : Text) : words (trimStart t) = words t := by
  obtain ⟨front, hfront, ht⟩ := exists_blank_append_trimStart t
  calc words (trimStart t) = words (front ++ trimStart t) := (words_blank_append hfront _).symm
    _ = words t := by rw [← ht]

/-- Trimming the end changes no word. -/
@[simp] theorem words_trimEnd (t : Text) : words (trimEnd t) = words t := by
  obtain ⟨back, hback, ht⟩ := exists_trimEnd_append_blank t
  calc words (trimEnd t) = words (trimEnd t ++ back) := (words_append_of_blank hback _).symm
    _ = words t := by rw [← ht]

/-- Trimming changes no word. -/
@[simp] theorem words_trim (t : Text) : words (trim t) = words t := by
  rw [trim, words_trimEnd, words_trimStart]

/-- What is left in `trimStart t` does not start with a blank. -/
theorem isBlank_head_trimStart {t rest : Text} {c : Char} (h : trimStart t = c :: rest) :
    isBlank c = false := by
  have := List.head?_dropWhile_not isBlank t
  rw [← trimStart, h] at this
  simpa using this

/-- Trimming a text leaves a part of it that starts where its first blanks end:
`trim t <+: trimStart t`. -/
theorem trim_prefix_trimStart (t : Text) : trim t <+: trimStart t := by
  obtain ⟨back, -, hback⟩ := exists_trimEnd_append_blank (trimStart t)
  exact ⟨back, hback.symm⟩

/-- What is left after trimming stands in the text without gaps: `trim t <:+: t`. -/
theorem trim_isInfix (t : Text) : trim t <:+: t :=
  (trim_prefix_trimStart t).isInfix.trans (List.dropWhile_suffix isBlank).isInfix

/-- Trimming takes characters away and adds none: `trim t ⊆ t`. -/
theorem trim_subset (t : Text) : trim t ⊆ t :=
  (trim_isInfix t).subset

/-- A blank `c` at the start is trimmed away. -/
theorem trim_cons_blank {c : Char} (h : isBlank c = true) (t : Text) : trim (c :: t) = trim t := by
  rw [trim, trimStart, List.dropWhile_cons_of_pos h, ← trimStart, ← trim]

/-- The text `trim t` does not start with a blank. -/
theorem isBlank_of_head?_trim {t : Text} {c : Char} (h : (trim t).head? = some c) :
    isBlank c = false := by
  obtain ⟨rest, hrest⟩ := List.head?_eq_some_iff.1 h
  obtain ⟨back, hback⟩ := trim_prefix_trimStart t
  rw [hrest] at hback
  exact isBlank_head_trimStart hback.symm

/-- The text `trim t` does not end with a blank. -/
theorem isBlank_of_getLast?_trim {t : Text} {c : Char} (h : (trim t).getLast? = some c) :
    isBlank c = false := by
  rw [trim, trimEnd, List.getLast?_reverse] at h
  have := List.head?_dropWhile_not isBlank (trimStart t).reverse
  rw [h] at this
  simpa using this

/-- Trimming leaves a text as it is that neither starts nor ends with a blank: `trim t = t`. -/
theorem trim_eq_self {t : Text} (hstart : ∀ c, t.head? = some c → isBlank c = false)
    (hend : ∀ c, t.getLast? = some c → isBlank c = false) : trim t = t := by
  have hkept : ∀ u : Text, (∀ c, u.head? = some c → isBlank c = false) →
      u.dropWhile isBlank = u := by
    intro u hu
    cases u with
    | nil => rfl
    | cons c u => rw [List.dropWhile_cons_of_neg (by simp [hu c rfl])]
  rw [trim, trimStart, hkept t hstart, trimEnd, hkept t.reverse (by simpa using hend),
    List.reverse_reverse]

/-- A text without words is nothing but the blanks it starts with: `trimStart t = []`. -/
theorem trimStart_eq_nil {t : Text} (h : words t = []) : trimStart t = [] := by
  cases hstart : trimStart t with
  | nil => rfl
  | cons c rest =>
      -- The first character that is not blank would begin a word.
      have hc := isBlank_head_trimStart hstart
      rw [← words_trimStart, hstart] at h
      obtain ⟨w, ws, hws⟩ := List.exists_cons_of_ne_nil (List.splitOnP_ne_nil isBlank rest)
      simp [words, List.splitOnP_cons_eq_if_modifyHead, hc, hws] at h

/-- A text has a word iff it has a character that is not blank. -/
theorem words_ne_nil_iff {t : Text} : words t ≠ [] ↔ ∃ c ∈ t, isBlank c = false := by
  constructor
  · intro h
    by_contra hall
    apply h
    apply words_eq_nil_of_blank
    intro c hc
    by_contra hblank
    exact hall ⟨c, hc, Bool.eq_false_iff.2 hblank⟩
  · rintro ⟨c, hc, hblank⟩ h
    have hall : ∀ d ∈ t, isBlank d = true := List.dropWhile_eq_nil_iff.1 (trimStart_eq_nil h)
    rw [hall c hc] at hblank
    exact absurd hblank (by decide)

/-- A text has nothing left when it is trimmed iff it has no words: `words t = []`. -/
theorem trim_eq_nil_iff {t : Text} : trim t = [] ↔ words t = [] := by
  refine ⟨fun h => by rw [← words_trim, h, words_nil], fun h => ?_⟩
  rw [trim, trimStart_eq_nil h]
  rfl

end Text

namespace Selector

open Text

/-! ## The first token and the others -/

/-- The words of `tail s` are those after the first token, which trimming leaves alone. -/
theorem words_tail (s : Text) :
    words (tail s) = words ((trimStart s).dropWhile fun c => !isBlank c) := by
  rw [tail, words_trim]

/-- A selector with a token in it has the first token `head s`, and then the words of its tail. -/
theorem words_eq_head_cons {s : Text} (h : words s ≠ []) :
    words s = head s :: words (tail s) ∧ IsToken (head s) := by
  have hstart : trimStart s ≠ [] := by
    intro hnil
    rw [← words_trimStart, hnil, words_nil] at h
    exact h rfl
  obtain ⟨c, rest, hc⟩ := List.exists_cons_of_ne_nil hstart
  have hhead : IsToken (head s) := by
    refine ⟨?_, fun d hd => by simpa using List.mem_takeWhile_imp hd⟩
    simp [head, hc, isBlank_head_trimStart hc]
  refine ⟨?_, hhead⟩
  rw [words_tail, ← words_trimStart s]
  have hcut : trimStart s = head s ++ (trimStart s).dropWhile fun c => !isBlank c :=
    List.takeWhile_append_dropWhile.symm
  cases hdrop : (trimStart s).dropWhile fun c => !isBlank c with
  | nil =>
      rw [hdrop, List.append_nil] at hcut
      rw [hcut, words_of_isToken hhead, words_nil]
  | cons d after =>
      have hd : isBlank d = true := by
        have := List.head?_dropWhile_not (fun c => !isBlank c) (trimStart s)
        simpa [hdrop] using this
      rw [hcut, hdrop, words_append_blank hd, words_of_isToken hhead, words_cons_blank hd]
      rfl

/-- Nothing is left in `tail s` iff the selector has no other token than its first. -/
theorem tail_eq_nil_iff {s : Text} : tail s = [] ↔ words (tail s) = [] := by
  rw [words_tail, tail, trim_eq_nil_iff]

/-- The first word of a selector is `head s`, and the others are the words of `tail s`. -/
theorem head_and_tail_of_words {s w : Text} {ws : List Text} (h : words s = w :: ws) :
    head s = w ∧ words (tail s) = ws := by
  have hcut := (words_eq_head_cons (s := s) (by rw [h]; exact List.cons_ne_nil w ws)).1
  rw [h, List.cons.injEq] at hcut
  exact ⟨hcut.1.symm, hcut.2.symm⟩

/-- A token is its own first token, and nothing is left of it without that: `head t = t` and
`tail t = []`. -/
theorem head_and_tail_of_isToken {t : Text} (h : IsToken t) : head t = t ∧ tail t = [] := by
  obtain ⟨hhead, htail⟩ := head_and_tail_of_words (words_of_isToken h)
  exact ⟨hhead, tail_eq_nil_iff.2 htail⟩

/-- The first token of a selector, `head s`, is its own first token, also where it is empty since
the selector has no token. -/
theorem head_and_tail_head (s : Text) : head (head s) = head s ∧ tail (head s) = [] := by
  by_cases h : words s = []
  · rw [head, head, trimStart_eq_nil h]
    exact ⟨rfl, rfl⟩
  · exact head_and_tail_of_isToken (words_eq_head_cons h).2

/-- No character of the first token, `head s`, is blank. -/
theorem isBlank_of_mem_head {s : Text} {c : Char} (h : c ∈ head s) : isBlank c = false := by
  simpa using List.mem_takeWhile_imp h

/-- The first token consists of characters of the selector: `head s ⊆ s`. -/
theorem head_subset (s : Text) : head s ⊆ s := by
  intro c hc
  have hstart : c ∈ trimStart s := List.takeWhile_subset _ hc
  exact List.dropWhile_subset isBlank hstart

/-- What is left without the first token consists of characters of the selector: `tail s ⊆ s`. -/
theorem tail_subset (s : Text) : tail s ⊆ s := by
  intro c hc
  have hstart : c ∈ trimStart s := List.dropWhile_subset _ (trim_subset _ hc)
  exact List.dropWhile_subset isBlank hstart

end Selector

end SassNesting
