import SassNesting.Text.Basic

/-! # Lines of a text

Lines that hold no line feed can be read back from the text that they make up, one by one
(`splitOn_unlines`), so two texts of such lines are equal only if their lines are. A run of
characters of one kind at the start of a line, such as its indentation, can be told from what
follows it (`append_inj_of_run`). -/

namespace SassNesting

namespace Text

/-! ## Lines -/

/-- Cut at its line feeds, `unlines lines` falls apart into these lines, if they have no line feeds
in them, and nothing is left behind the last line feed. -/
theorem splitOn_unlines {lines : List Text} (h : ∀ line ∈ lines, '\n' ∉ line) :
    (unlines lines).splitOn '\n' = lines ++ [[]] := by
  induction lines with
  | nil => simp
  | cons line lines ih =>
      obtain ⟨hline, hlines⟩ := List.forall_mem_cons.1 h
      rw [unlines_cons, List.splitOn_append_cons_self, ih hlines, List.splitOn_eq_singleton hline,
        List.cons_append, List.nil_append, List.cons_append]

/-- Lines without line feeds are determined by the text that they make up: `unlines` is injective on
them. -/
theorem unlines_inj {lines more : List Text} (h : ∀ line ∈ lines, '\n' ∉ line)
    (hmore : ∀ line ∈ more, '\n' ∉ line) : unlines lines = unlines more ↔ lines = more := by
  constructor
  · intro heq
    have hsplit := congrArg (List.splitOn '\n') heq
    rw [splitOn_unlines h, splitOn_unlines hmore] at hsplit
    exact List.append_cancel_right hsplit
  · rintro rfl
    rfl

/-- The text `unlines lines` has a line feed for each of the lines, and those that stand inside
them. -/
theorem count_unlines (lines : List Text) :
    (unlines lines).count '\n' = lines.length + lines.flatten.count '\n' := by
  induction lines with
  | nil => rfl
  | cons line lines ih =>
      rw [unlines_cons, List.count_append, List.count_cons_self, ih, List.length_cons,
        List.flatten_cons, List.count_append]
      omega

/-- The text of lines without line feeds has `lines.length` line feeds. -/
theorem count_unlines_of_notMem {lines : List Text} (h : ∀ line ∈ lines, '\n' ∉ line) :
    (unlines lines).count '\n' = lines.length := by
  have hnone : '\n' ∉ lines.flatten := by
    intro hmem
    obtain ⟨line, hline, hinside⟩ := List.mem_flatten.1 hmem
    exact h line hline hinside
  rw [count_unlines, List.count_eq_zero.2 hnone, Nat.add_zero]

/-! ## Runs at the start -/

/-- The characters with `p` that a text starts with, and what follows them, are determined by the
text. -/
theorem append_inj_of_run {p : Char → Bool} {s t rest more : Text} (hs : ∀ c ∈ s, p c = true)
    (ht : ∀ c ∈ t, p c = true) (hrest : ∀ c, rest.head? = some c → p c = false)
    (hmore : ∀ c, more.head? = some c → p c = false) (h : s ++ rest = t ++ more) :
    s = t ∧ rest = more := by
  have hstop : ∀ {u : Text}, (∀ c, u.head? = some c → p c = false) → u.dropWhile p = u := by
    intro u hu
    cases u with
    | nil => rfl
    | cons c u => exact List.dropWhile_cons_of_neg (by simp [hu c rfl])
  have hback := congrArg (List.dropWhile p) h
  rw [List.dropWhile_append_of_pos hs, List.dropWhile_append_of_pos ht, hstop hrest,
    hstop hmore] at hback
  rw [hback] at h
  exact ⟨List.append_cancel_right h, hback⟩

/-- What stands in front of the first `c` of a text and what follows it are determined. -/
theorem append_cons_inj {c : Char} {s t rest more : Text} (hs : c ∉ s) (ht : c ∉ t)
    (h : s ++ c :: rest = t ++ c :: more) : s = t ∧ rest = more := by
  have hne : ∀ {u : Text}, c ∉ u → ∀ d ∈ u, (d != c) = true := by
    intro u hu d hd
    exact bne_iff_ne.2 fun heq => hu (heq ▸ hd)
  have hinj := append_inj_of_run (hne hs) (hne ht) (by simp) (by simp) h
  exact ⟨hinj.1, List.tail_eq_of_cons_eq hinj.2⟩

/-- What stands behind spaces, and their number, are determined where no further space follows:
`m = n` and `rest = more`. -/
theorem replicate_append_inj {m n : Nat} {rest more : Text} (hrest : rest.head? ≠ some ' ')
    (hmore : more.head? ≠ some ' ')
    (h : List.replicate m ' ' ++ rest = List.replicate n ' ' ++ more) : m = n ∧ rest = more := by
  have hspaces : ∀ k, ∀ c ∈ List.replicate k ' ', (c == ' ') = true := by
    intro k c hc
    exact beq_iff_eq.2 (List.eq_of_mem_replicate hc)
  have hend : ∀ {u : Text}, u.head? ≠ some ' ' → ∀ c, u.head? = some c → (c == ' ') = false := by
    rintro u hu c hc
    exact beq_eq_false_iff_ne.2 fun heq => hu (heq ▸ hc)
  have hinj := append_inj_of_run (hspaces m) (hspaces n) (hend hrest) (hend hmore) h
  exact ⟨by simpa using congrArg List.length hinj.1, hinj.2⟩

end Text

end SassNesting
