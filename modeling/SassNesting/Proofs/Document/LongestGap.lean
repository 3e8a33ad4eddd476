import SassNesting.Proofs.Document.Gaps
import SassNesting.Proofs.Text.Position

/-! # The longest gap

A text can be cut in exactly one way into blanks and closed comments at its start and something that
does not go on with them: either a text that no gap starts, or a comment that is never closed. The
reader of gaps finds this cut (`Gap.read_longest`). It hands out the blanks in front of the cut and
stops behind it, at the end of the document if a comment is left open there, so where a gap has been
read there is no further one. -/

namespace SassNesting

namespace Gap

/-! ## Cuts -/

/-- How a text goes on behind blanks and closed comments. -/
inductive Tail where
  /-- With a text that no gap starts. -/
  | follows (rest : Text)
  /-- With an opening mark, and the text of a comment that is never closed. -/
  | leftOpen (inside : Text)

namespace Tail

/-- The text of a tail: a comment that is left open has its opening mark in front. -/
def text : Tail → Text
  | follows rest => rest
  | leftOpen inside => '/' :: '*' :: inside

/-- Neither a blank nor a closed comment starts the tail: `Absent rest`, or `Unclosed inside`. -/
def Valid : Tail → Prop
  | follows rest => Absent rest
  | leftOpen inside => Unclosed inside

end Tail

/-- A text `t` cut behind the blanks and closed comments at its start. -/
@[ext] structure Cut (t : Text) where
  /-- The blanks and comments in front of the cut. -/
  gap : Text
  /-- The blanks among them. -/
  blanks : Text
  /-- What is behind the cut. -/
  tail : Tail
  /-- All comments in front of the cut are closed. -/
  closed : Closed gap blanks
  /-- The tail does not go on with a blank or a closed comment. -/
  valid : tail.Valid
  /-- The two parts make up the text. -/
  text_eq : t = gap ++ tail.text

/-- Every text can be cut: there is a `Cut t`. -/
theorem nonempty_cut (t : Text) : Nonempty (Cut t) := by
  obtain ⟨gap, hgap, ht, habsent⟩ := exists_written_read t
  generalize (read t).1 = blanks, (read t).2 = rest at hgap ht habsent
  cases hgap with
  | closed hclosed => exact ⟨gap, blanks, .follows rest, hclosed, habsent, ht⟩
  | @unclosed front _ inside hclosed hinside =>
      refine ⟨front, blanks, .leftOpen inside, hclosed, hinside, ?_⟩
      rw [ht, List.append_nil, Tail.text]

/-! ## There is one cut only -/

/-- Behind a blank `c` at its start a closed gap goes on as one. -/
theorem Closed.of_blank_cons {c : Char} {gap blanks : Text} (h : Closed (c :: gap) blanks)
    (hc : Text.isBlank c = true) : ∃ more, Closed gap more := by
  cases h with
  | blank _ hgap => exact ⟨_, hgap⟩
  | comment => exact absurd hc (by decide)

/-- An opening mark at the start of a closed gap belongs to a comment that is closed in it, behind
which the gap goes on. -/
theorem Closed.of_mark {t blanks : Text} (h : Closed ('/' :: '*' :: t) blanks) :
    ∃ inside gap, Unclosed inside ∧ t = inside ++ '*' :: '/' :: gap ∧ Closed gap blanks := by
  cases h with
  | blank hc _ => exact absurd hc (by decide)
  | comment hinside hgap => exact ⟨_, _, hinside, rfl, hgap⟩

/-- What follows a closed gap `gap` within a longer one, `gap ++ t`, is a closed gap. -/
theorem Closed.exists_right {gap blanks t all : Text} (h : Closed gap blanks)
    (hall : Closed (gap ++ t) all) : ∃ more, Closed t more := by
  -- The induction is on the front; each item of it is the first item of the whole as well.
  induction h generalizing all with
  | nil => exact ⟨all, hall⟩
  | blank hc _ ih =>
      obtain ⟨more, hmore⟩ := hall.of_blank_cons hc
      exact ih hmore
  | @comment inside gap blanks hinside _ ih =>
      rw [List.cons_append, List.cons_append, List.append_assoc] at hall
      obtain ⟨inside', gap', hinside', hafter, hgap'⟩ := hall.of_mark
      -- Both comments end at the first closing mark, so the same text follows them.
      have hskip := congrArg skipComment hafter
      rw [List.cons_append, List.cons_append, skipComment_closed hinside,
        skipComment_closed hinside'] at hskip
      exact ih (hskip ▸ hgap')

/-- The blanks of a closed gap are determined by its text: `blanks = blanks'`. -/
theorem Closed.blanks_unique {gap blanks blanks' : Text} (h : Closed gap blanks)
    (h' : Closed gap blanks') : blanks = blanks' := by
  have hread := read_append_of_closed h []
  rw [read_append_of_closed h' []] at hread
  exact (List.append_cancel_right (Prod.mk.inj hread).1).symm

/-- A valid tail does not start with a closed gap, unless that is empty: `gap = []`. -/
theorem Tail.Valid.gap_eq_nil {tail : Tail} (h : tail.Valid) {gap blanks more : Text}
    (hgap : Closed gap blanks) (htext : tail.text = gap ++ more) : gap = [] := by
  cases tail with
  | follows rest =>
      -- No gap starts the text, so a gap that does is empty.
      have habsent : Absent (gap ++ more) := htext ▸ h
      cases hgap with
      | nil => rfl
      | blank hc _ =>
          have hblank := habsent.not_blank _ rfl
          rw [hc] at hblank
          cases hblank
      | comment => exact absurd ⟨_, rfl⟩ habsent.not_comment
  | leftOpen inside =>
      cases hgap with
      | nil => rfl
      | blank hc _ =>
          obtain ⟨rfl, -⟩ := List.cons.inj htext
          exact absurd hc (by decide)
      | @comment inside' gap' _ _ _ =>
          -- The comment that is never closed would hold the closing mark of the gap's first one.
          have hinside : inside' ++ ['*', '/'] ++ (gap' ++ more) = inside := by
            simpa [Tail.text] using htext.symm
          exact absurd ⟨inside', gap' ++ more, hinside⟩ h

/-- The kind of a valid tail is told by its text: `tail.text = tail'.text` only for `tail = tail'`.
-/
theorem Tail.Valid.eq_of_text_eq {tail tail' : Tail} (h : tail.Valid) (h' : tail'.Valid)
    (htext : tail.text = tail'.text) : tail = tail' := by
  cases tail with
  | follows rest =>
      cases tail' with
      | follows rest' => exact congrArg follows htext
      | leftOpen inside' => exact absurd ⟨inside', htext.symm⟩ h.not_comment
  | leftOpen inside =>
      cases tail' with
      | follows rest' => exact absurd ⟨inside, htext⟩ h'.not_comment
      | leftOpen inside' =>
          simp only [text, List.cons.injEq, true_and] at htext
          exact congrArg leftOpen htext

/-- The gap in front of one cut does not prolong the gap in front of another: `more = []`. -/
theorem Cut.eq_nil_of_gap_eq {t more : Text} {cut other : Cut t}
    (hgap : other.gap = cut.gap ++ more) : more = [] := by
  have htext : cut.tail.text = more ++ other.tail.text := by
    have hwhole := cut.text_eq.symm.trans other.text_eq
    rw [hgap, List.append_assoc] at hwhole
    exact List.append_cancel_left hwhole
  obtain ⟨blanks, hmore⟩ := cut.closed.exists_right (hgap ▸ other.closed)
  exact cut.valid.gap_eq_nil hmore htext

/-- A text can be cut in one way only: `cut = other`. -/
theorem Cut.unique {t : Text} (cut other : Cut t) : cut = other := by
  have hgap : cut.gap = other.gap := by
    rcases List.append_eq_append_iff.1 (cut.text_eq.symm.trans other.text_eq) with
      ⟨more, hmore, -⟩ | ⟨more, hmore, -⟩
    · rw [hmore, eq_nil_of_gap_eq hmore, List.append_nil]
    · rw [hmore, eq_nil_of_gap_eq hmore, List.append_nil]
  have htext : cut.tail.text = other.tail.text := by
    have hwhole := cut.text_eq.symm.trans other.text_eq
    rw [hgap] at hwhole
    exact List.append_cancel_left hwhole
  have hblanks : cut.blanks = other.blanks :=
    cut.closed.blanks_unique (hgap ▸ other.closed)
  exact Cut.ext hgap hblanks (cut.valid.eq_of_text_eq other.valid htext)

/-! ## The reader finds the cut -/

/-- **The longest gap at a place of a document.** Behind the `front`, the text `t` can be cut in
exactly one way into blanks and closed comments, and a text that no gap starts or a comment that is
never closed. The reader of gaps, `read t`, yields the blanks, and leaves off behind the gap or, in
the second case, at the end of the document. Where it leaves off there is no gap to read. -/
theorem read_longest (front t : Text) :
    (∃ cut : Cut t, ∀ other : Cut t, other = cut) ∧
      (∀ gap blanks rest, Closed gap blanks → Absent rest → t = gap ++ rest →
        read t = (blanks, rest) ∧
          Text.offset (front ++ t) (read t).2 = Text.byteSize (front ++ gap)) ∧
      (∀ gap blanks inside, Closed gap blanks → Unclosed inside →
        t = gap ++ '/' :: '*' :: inside →
          read t = (blanks, []) ∧
            Text.offset (front ++ t) (read t).2 = Text.byteSize (front ++ t)) ∧
      read (read t).2 = ([], (read t).2) := by
  refine ⟨?_, ?_, ?_, read_of_absent (absent_skip t)⟩
  · obtain ⟨cut⟩ := nonempty_cut t
    exact ⟨cut, fun other => other.unique cut⟩
  · rintro gap blanks rest hgap hrest rfl
    have hread := read_of_written (.closed hgap) hrest
    refine ⟨hread, ?_⟩
    rw [hread, ← List.append_assoc, Text.offset_append]
  · rintro gap blanks inside hgap hinside rfl
    have hread := read_of_written (.unclosed hgap hinside) absent_nil
    rw [List.append_nil] at hread
    refine ⟨hread, ?_⟩
    rw [hread, Text.offset, Text.byteSize_nil, Nat.sub_zero]

/-- A slash behind an opening mark does not close the comment. Behind a character of two bytes and a
gap with such a comment, a comment that holds only a star is left open. -/
theorem read_longest_leftOpen :
    read (" /*/*/\t".toList ++ '/' :: '*' :: ['*']) = (" \t".toList, []) ∧
      Text.offset ("é".toList ++ (" /*/*/\t".toList ++ '/' :: '*' :: ['*']))
        (read (" /*/*/\t".toList ++ '/' :: '*' :: ['*'])).2 = 12 ∧
      ∃ cut : Cut (" /*/*/\t".toList ++ '/' :: '*' :: ['*']), ∀ other, other = cut := by
  have hcomment : Closed ('/' :: '*' :: (['/'] ++ '*' :: '/' :: ['\t'])) ['\t'] :=
    .comment (unclosed_cons.2 ⟨by decide, unclosed_nil⟩) (.blank rfl .nil)
  have hgap : Closed " /*/*/\t".toList " \t".toList := .blank rfl hcomment
  have hstar : Unclosed ['*'] := unclosed_cons.2 ⟨by decide, unclosed_nil⟩
  obtain ⟨hunique, -, hopen, -⟩ :=
    read_longest "é".toList (" /*/*/\t".toList ++ '/' :: '*' :: ['*'])
  obtain ⟨hread, hoffset⟩ := hopen _ _ _ hgap hstar rfl
  exact ⟨hread, hoffset, hunique⟩

end Gap

end SassNesting
