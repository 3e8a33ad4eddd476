import SassNesting.Proofs.Document.Grammar
import Mathlib.Data.List.TakeWhile

/-! # Reading gaps and runs

`Gap.read` takes exactly the gap that stands at the start of a text: what it takes is a gap
(`Gap.exists_written_read`), and a gap that no further gap follows is what it takes
(`Gap.read_of_written`). The same is shown of runs of characters, and of tokens with gaps between
them. -/

namespace SassNesting

namespace Gap

/-! ## Texts that no gap starts -/

/-- No gap starts the empty text: `Absent []`. -/
theorem absent_nil : Absent [] := ⟨by simp, by simp⟩

/-- Neither a blank nor a slash in front: `Absent (c :: t)` whatever `t` is. -/
theorem absent_cons {c : Char} (hblank : Text.isBlank c = false) (hslash : c ≠ '/') (t : Text) :
    Absent (c :: t) := by
  constructor
  · simpa using hblank
  · intro h
    rw [List.cons_prefix_cons] at h
    exact hslash h.1.symm

/-- The start `s` of a text that no gap starts is not the start of a gap. -/
theorem Absent.left {s t : Text} (h : Absent (s ++ t)) : Absent s := by
  constructor
  · intro c hc
    have hhead : (s ++ t).head? = some c := by
      rw [List.head?_append, hc]
      rfl
    exact h.not_blank c hhead
  · intro hmark
    exact h.not_comment (hmark.trans (List.prefix_append s t))

/-- A text `s` that no gap starts can be followed by anything but a star. -/
theorem Absent.append {s t : Text} (hs : Absent s) (ht : s = [] → Absent t)
    (hstar : t.head? ≠ some '*') : Absent (s ++ t) := by
  match s with
  | [] => exact ht rfl
  | [c] =>
      -- An opening mark would begin with the only character of `s` and end with a star after it.
      refine ⟨by simpa using hs.not_blank, ?_⟩
      rintro ⟨more, hmore⟩
      simp only [List.cons_append, List.nil_append, List.cons.injEq] at hmore
      have hhead : t.head? = some '*' := by
        rw [← hmore.2]
        rfl
      exact hstar hhead
  | c :: d :: s =>
      refine ⟨by simpa using hs.not_blank, ?_⟩
      intro h
      have hmark : ['/', '*'] <+: c :: d :: s := by
        simpa [List.cons_prefix_cons] using h
      exact hs.not_comment hmark

/-- Where no gap starts, none is read: `read t = ([], t)`. -/
theorem read_of_absent {t : Text} (h : Absent t) : read t = ([], t) := by
  match t with
  | [] => rw [read]
  | c :: rest =>
      have hc : Text.isBlank c = false := h.not_blank c rfl
      rw [read]
      · simp [hc]
      · rintro after rfl rfl
        exact h.not_comment ⟨after, rfl⟩

/-- A blank `c` belongs to the gap it starts. -/
theorem read_cons_blank {c : Char} (hc : Text.isBlank c = true) (t : Text) :
    read (c :: t) = (c :: (read t).1, (read t).2) := by
  rw [read]
  · simp [hc]
  · rintro after rfl
    exact absurd hc (by decide)

/-! ## Comments -/

/-- The text `c :: t` has no closing mark iff `t` has none and no mark begins with `c`. -/
theorem unclosed_cons {c : Char} {t : Text} :
    Unclosed (c :: t) ↔ ¬ (c = '*' ∧ t.head? = some '/') ∧ Unclosed t := by
  have hhead : ['/'] <+: t ↔ t.head? = some '/' := by
    cases t <;> simp [List.cons_prefix_cons, eq_comm]
  rw [Unclosed, List.infix_cons_iff, List.cons_prefix_cons, hhead, not_or, Unclosed, eq_comm]

/-- There is no closing mark in the empty text: `Unclosed []`. -/
theorem unclosed_nil : Unclosed [] := by
  simp [Unclosed]

/-- A comment ends at its first closing mark: `skipComment` leaves `rest`. -/
theorem skipComment_closed {inside : Text} (h : Unclosed inside) (rest : Text) :
    skipComment (inside ++ '*' :: '/' :: rest) = rest := by
  induction inside with
  | nil => simp [skipComment]
  | cons c inside ih =>
      rw [unclosed_cons] at h
      rw [List.cons_append, skipComment, ih h.2]
      -- The first character does not begin a mark, whether the second is inside or not.
      rintro after rfl hafter
      cases inside with
      | nil => simp at hafter
      | cons d inside =>
          have hhead : (d :: inside).head? = some '/' := by
            simpa using congrArg List.head? hafter
          exact h.1 ⟨rfl, hhead⟩

/-- A comment that is never closed runs to the end: `skipComment t = []`. -/
theorem skipComment_unclosed {t : Text} (h : Unclosed t) : skipComment t = [] := by
  induction t with
  | nil => rfl
  | cons c t ih =>
      rw [unclosed_cons] at h
      rw [skipComment, ih h.2]
      rintro after rfl rfl
      exact h.1 ⟨rfl, rfl⟩

/-- The text `t` of a comment is closed by the first mark in it, or `Unclosed`. -/
theorem closed_or_unclosed (t : Text) :
    (∃ inside rest, Unclosed inside ∧ t = inside ++ '*' :: '/' :: rest) ∨ Unclosed t := by
  induction t with
  | nil => exact Or.inr unclosed_nil
  | cons c t ih =>
      -- Either a mark begins right here, or the first mark is that of the tail.
      by_cases hmark : c = '*' ∧ t.head? = some '/'
      · obtain ⟨rfl, hhead⟩ := hmark
        obtain ⟨rest, rfl⟩ := List.head?_eq_some_iff.1 hhead
        exact Or.inl ⟨[], rest, unclosed_nil, rfl⟩
      · rcases ih with ⟨inside, rest, hinside, rfl⟩ | ht
        · refine Or.inl ⟨c :: inside, rest, unclosed_cons.2 ⟨?_, hinside⟩, rfl⟩
          rintro ⟨rfl, hhead⟩
          exact hmark ⟨rfl, by simp [hhead]⟩
        · exact Or.inr (unclosed_cons.2 ⟨hmark, ht⟩)

/-! ## Gaps -/

/-- A blank `c` may be put in front of a gap. -/
theorem Written.blank_cons {c : Char} {gap blanks rest : Text} (hc : Text.isBlank c = true)
    (h : Written gap blanks rest) : Written (c :: gap) (c :: blanks) rest := by
  cases h with
  | closed hgap => exact .closed (.blank hc hgap)
  | unclosed hgap hinside => exact .unclosed (.blank hc hgap) hinside

/-- A comment with the text `inside` may be put in front of a gap. -/
theorem Written.comment_append {inside gap blanks rest : Text} (hinside : Unclosed inside)
    (h : Written gap blanks rest) :
    Written ('/' :: '*' :: (inside ++ '*' :: '/' :: gap)) blanks rest := by
  cases h with
  | closed hgap => exact .closed (.comment hinside hgap)
  | unclosed hgap hopen =>
      have hwritten := Written.unclosed (.comment hinside hgap) hopen
      simpa using hwritten

/-- In front of some text all comments of a gap are closed: `Written` becomes `Closed`. -/
theorem Written.toClosed {gap blanks rest : Text} (h : Written gap blanks rest)
    (hrest : rest ≠ []) : Closed gap blanks := by
  cases h with
  | closed hgap => exact hgap
  | unclosed => exact absurd rfl hrest

/-- What `read t` takes as a gap is one, and no gap follows it. -/
theorem exists_written_read (t : Text) :
    ∃ gap, Written gap (read t).1 (read t).2 ∧ t = gap ++ (read t).2 ∧ Absent (read t).2 := by
  fun_induction read t with
  | case1 => exact ⟨[], .closed .nil, rfl, absent_nil⟩
  | case2 rest ih =>
      -- A comment: either it is closed and the gap goes on, or it is the end of the document.
      rcases closed_or_unclosed rest with ⟨inside, after, hinside, rfl⟩ | hopen
      · rw [skipComment_closed hinside] at ih ⊢
        obtain ⟨gap, hgap, hafter, habsent⟩ := ih
        refine ⟨_, hgap.comment_append hinside, ?_, habsent⟩
        simpa using hafter
      · rw [skipComment_unclosed hopen, read_of_absent absent_nil]
        exact ⟨'/' :: '*' :: rest, .unclosed .nil hopen, by simp, absent_nil⟩
  | case3 c rest _ hc blanks after hread ih =>
      -- A blank.
      rw [hread] at ih
      obtain ⟨gap, hgap, hrest, habsent⟩ := ih
      exact ⟨c :: gap, hgap.blank_cons hc, by rw [hrest, List.cons_append], habsent⟩
  | case4 c rest hslash hc =>
      -- Neither: the gap ends here.
      refine ⟨[], .closed .nil, rfl, by simpa using hc, ?_⟩
      rintro ⟨after, hafter⟩
      simp only [List.cons_append, List.nil_append, List.cons.injEq] at hafter
      exact hslash after hafter.1.symm hafter.2.symm

/-- What is left of `t` without the gap at its start, `skip t`, is behind that gap. -/
theorem exists_written_skip (t : Text) :
    ∃ gap, Written gap (read t).1 (skip t) ∧ t = gap ++ skip t := by
  obtain ⟨gap, hgap, ht, -⟩ := exists_written_read t
  exact ⟨gap, hgap, ht⟩

/-- No gap follows the gap at the start of a text: `Absent (skip t)`. -/
theorem absent_skip (t : Text) : Absent (skip t) := by
  obtain ⟨-, -, -, habsent⟩ := exists_written_read t
  exact habsent

/-- A closed gap is read as a whole, and whatever gap follows it in `t` is read with it. -/
theorem read_append_of_closed {gap blanks : Text} (h : Closed gap blanks) (t : Text) :
    read (gap ++ t) = (blanks ++ (read t).1, (read t).2) := by
  induction h with
  | nil => rfl
  | blank hc _ ih => rw [List.cons_append, read_cons_blank hc, ih, List.cons_append]
  | @comment inside gap blanks hinside _ ih =>
      have hassoc : ('/' :: '*' :: (inside ++ '*' :: '/' :: gap)) ++ t =
          '/' :: '*' :: (inside ++ '*' :: '/' :: (gap ++ t)) := by simp
      rw [hassoc, read, skipComment_closed hinside, ih]

/-- A gap that no gap follows is read as a whole: `read (gap ++ rest) = (blanks, rest)`. -/
theorem read_of_written {gap blanks rest : Text} (h : Written gap blanks rest)
    (hrest : Absent rest) : read (gap ++ rest) = (blanks, rest) := by
  cases h with
  | closed hgap => rw [read_append_of_closed hgap, read_of_absent hrest, List.append_nil]
  | unclosed hgap hopen =>
      rw [List.append_nil, read_append_of_closed hgap, read, skipComment_unclosed hopen,
        read_of_absent absent_nil, List.append_nil]

/-- After a gap that no gap follows stands what follows it: `skip (gap ++ rest) = rest`. -/
theorem skip_of_written {gap blanks rest : Text} (h : Written gap blanks rest)
    (hrest : Absent rest) : skip (gap ++ rest) = rest := by
  rw [skip, read_of_written h hrest]

end Gap

/-! ## Runs -/

namespace IsRun

variable {isChar : Char → Bool} {run after : Text}

/-- The `run` is what `takeWhile` takes from its text. -/
theorem takeWhile_eq (h : IsRun isChar run after) : (run ++ after).takeWhile isChar = run := by
  rw [List.takeWhile_append_of_pos h.all]
  cases after with
  | nil => rw [List.takeWhile_nil, List.append_nil]
  | cons c after => simp [h.ends c rfl]

/-- The text `after` the run is what `dropWhile` leaves. -/
theorem dropWhile_eq (h : IsRun isChar run after) : (run ++ after).dropWhile isChar = after := by
  rw [List.dropWhile_append_of_pos h.all]
  cases after with
  | nil => rfl
  | cons c after => simp [h.ends c rfl]

/-- What `takeWhile` takes from a text `t` is a run, if it is anything. -/
theorem of_takeWhile {t : Text} (h : t.takeWhile isChar ≠ []) :
    IsRun isChar (t.takeWhile isChar) (t.dropWhile isChar) := by
  refine ⟨h, fun c hc => List.mem_takeWhile_imp hc, ?_⟩
  intro c hc
  have hhead := List.head?_dropWhile_not isChar t
  rw [hc] at hhead
  simpa using hhead

/-- How a run ends depends on the first character after it alone: `other` may stand for `after`. -/
theorem of_head_eq {other : Text} (h : IsRun isChar run after)
    (hhead : other.head? = after.head?) : IsRun isChar run other :=
  ⟨h.ne_nil, h.all, fun c hc => h.ends c (hhead ▸ hc)⟩

/-- A run that no gap starts still starts no gap in front of the text `after` it, if a star would
prolong the run. -/
theorem absent_append (h : IsRun isChar run after) (habsent : Gap.Absent run)
    (hstar : isChar '*' = true) : Gap.Absent (run ++ after) := by
  apply habsent.append
  · intro hnil
    exact absurd hnil h.ne_nil
  · intro hhead
    have hend : isChar '*' = false := h.ends _ hhead
    rw [hend] at hstar
    exact Bool.false_ne_true hstar

end IsRun

/-! ## Tokens -/

/-- A `Sequence` of items that start no gap, in front of a text `rest` that starts none either,
starts no gap. -/
theorem Sequence.absent_append {α : Type} {Written : α → Text → Text → Prop}
    (hitem : ∀ {item text rest}, Written item text rest → Gap.Absent (text ++ rest))
    {items : List α} {text rest : Text} (h : Sequence Written rest items text)
    (hrest : Gap.Absent rest) : Gap.Absent (text ++ rest) := by
  cases h with
  | nil => exact hrest
  | cons hwritten _ =>
      rw [List.append_assoc]
      exact hitem hwritten

namespace Gap

variable {isChar : Char → Bool}

/-- A token that is written starts no gap: `Absent (text ++ rest)`. -/
theorem absent_of_tokenWritten (hstar : isChar '*' = true) {token : Text × Text} {text rest : Text}
    (h : TokenWritten isChar token text rest) : Absent (text ++ rest) := by
  cases h with
  | intro hrun habsent hgap =>
      rw [List.append_assoc]
      exact hrun.absent_append habsent hstar

/-- Tokens that are written in a `Sequence` are read as a whole by `readTokens`, in front of a text
`rest` that neither a gap nor a token starts. -/
theorem readTokens_of_sequence (hstar : isChar '*' = true) {tokens : List (Text × Text)}
    {text rest : Text} (h : Sequence (TokenWritten isChar) rest tokens text) (hrest : Absent rest)
    (hend : rest.takeWhile isChar = []) : readTokens isChar (text ++ rest) = (tokens, rest) := by
  induction h with
  | nil =>
      rw [List.nil_append, readTokens, if_pos hend]
  | @cons _ _ _ more hitem hmore ih =>
      have habsent := hmore.absent_append (absent_of_tokenWritten hstar) hrest
      cases hitem with
      | @intro token gap blanks _ hrun _ hgap =>
          have hassoc : token ++ gap ++ more ++ rest = token ++ (gap ++ (more ++ rest)) := by
            simp only [List.append_assoc]
          rw [hassoc, readTokens, hrun.takeWhile_eq, hrun.dropWhile_eq, if_neg hrun.ne_nil,
            read_of_written hgap habsent]
          simp only [ih]

/-- What `readTokens isChar t` reads is a `Sequence` of tokens, in front of a text that neither a
gap nor a token starts. -/
theorem exists_sequence_readTokens (isChar : Char → Bool) {t : Text} (ht : Absent t) :
    ∃ text, Sequence (TokenWritten isChar) (readTokens isChar t).2 (readTokens isChar t).1 text ∧
      t = text ++ (readTokens isChar t).2 ∧ Absent (readTokens isChar t).2 ∧
      (readTokens isChar t).2.takeWhile isChar = [] := by
  fun_induction readTokens isChar t with
  | case1 t hnil => exact ⟨[], .nil, rfl, ht, hnil⟩
  | case2 t htoken gap tokens rest hread ih =>
      obtain ⟨blanks, hgap, hafter, habsent⟩ := exists_written_read (t.dropWhile isChar)
      obtain ⟨more, hmore, hrest, hstop⟩ := ih habsent
      rw [hread] at hmore hrest hstop
      have hrun := IsRun.of_takeWhile htoken
      have hsplit : t = t.takeWhile isChar ++ t.dropWhile isChar :=
        List.takeWhile_append_dropWhile.symm
      -- The text is a token, the gap after it, and the tokens read behind the gap.
      refine ⟨t.takeWhile isChar ++ blanks ++ more, .cons (.intro ?_ ?_ ?_) hmore, ?_, hstop⟩
      · rw [← hrest, ← hafter]
        exact hrun
      · exact Absent.left (hsplit ▸ ht)
      · rw [← hrest]
        exact hgap
      · rw [List.append_assoc, ← hrest, List.append_assoc, ← hafter]
        exact hsplit

end Gap

end SassNesting
