import SassNesting.Proofs.Text.Words

/-! # Pieces of a comma list

A comma cuts the list of pieces of a selector in two, so the pieces of a comma list put together
from selectors are the pieces of these selectors (`pieces_ofPieces`). The tokens of the pieces are
the paths a selector stands for; a selector without a comma stands for the path of its own
tokens. -/

namespace SassNesting

/-- Tokens of selectors, from the outermost rule to the innermost. -/
abbrev TokenPath := List Text

namespace Selector

open Text

/-- The greatest of some `numbers` is at most `n` iff each of them is. -/
theorem foldr_max_le_iff {numbers : List Nat} {n : Nat} :
    numbers.foldr max 0 ≤ n ↔ ∀ m ∈ numbers, m ≤ n := by
  induction numbers with
  | nil => simp
  | cons m numbers ih => rw [List.foldr_cons, Nat.max_le, ih, List.forall_mem_cons]

/-- The longest piece has at most `n` tokens iff every piece has. -/
theorem depth_le_iff {selector : Text} {n : Nat} :
    depth selector ≤ n ↔ ∀ piece ∈ selector.splitOn ',', (words piece).length ≤ n := by
  rw [depth, foldr_max_le_iff, List.forall_mem_map]

/-! ## Pieces -/

@[simp] theorem pieces_nil : pieces [] = [] := by
  simp [pieces, trim, trimStart, trimEnd]

/-- A comma parts the pieces before it from the pieces after it: `pieces s ++ pieces t`. -/
theorem pieces_append_comma (s t : Text) : pieces (s ++ ',' :: t) = pieces s ++ pieces t := by
  simp [pieces, List.splitOn_append_cons_self]

/-- A blank `c` at the start belongs to no piece. -/
theorem pieces_cons_blank {c : Char} (hc : isBlank c = true) (s : Text) :
    pieces (c :: s) = pieces s := by
  have hcomma : (c == ',') = false := by
    rw [beq_eq_false_iff_ne]
    rintro rfl
    exact absurd hc (by decide)
  obtain ⟨piece, others, hsplit⟩ := List.exists_cons_of_ne_nil (List.splitOn_ne_nil ',' s)
  simp [pieces, List.splitOn_cons_eq_if_modifyHead, hcomma, hsplit, trim_cons_blank hc]

/-- The pieces of a comma list `ofPieces selectors` are the pieces of the selectors. -/
theorem pieces_ofPieces (selectors : List Text) :
    pieces (ofPieces selectors) = selectors.flatMap pieces := by
  rw [ofPieces]
  induction selectors with
  | nil => simp
  | cons s rest ih =>
      cases rest with
      | nil => simp
      | cons t rest =>
          have hjoin : [',', ' '].intercalate (s :: t :: rest) =
              s ++ ',' :: ' ' :: [',', ' '].intercalate (t :: rest) := by simp
          rw [hjoin, pieces_append_comma, pieces_cons_blank (by decide), ih,
            ← List.flatMap_cons]

/-- A selector without a comma is its only piece, if it has a token: `pieces s = [trim s]`. -/
theorem pieces_of_not_mem {s : Text} (hcomma : ',' ∉ s) (htoken : words s ≠ []) :
    pieces s = [trim s] := by
  have hne : trim s ≠ [] := fun h => htoken (trim_eq_nil_iff.1 h)
  simp [pieces, List.splitOn_eq_singleton hcomma, hne]

/-- No `part` of a text between commas has a comma in it. -/
theorem not_mem_of_mem_splitOn {s part : Text} (h : part ∈ s.splitOn ',') : ',' ∉ part := by
  induction s generalizing part with
  | nil => simp_all
  | cons c s ih =>
      obtain ⟨first, others, hsplit⟩ := List.exists_cons_of_ne_nil (List.splitOn_ne_nil ',' s)
      rw [hsplit] at ih
      by_cases hc : c = ','
      · subst hc
        rw [List.splitOn_cons_eq_if_modifyHead, hsplit, if_pos (beq_self_eq_true ','),
          List.mem_cons] at h
        rcases h with rfl | h
        · exact List.not_mem_nil
        · exact ih h
      · -- The character is put in front of the first part of what follows.
        rw [List.splitOn_cons_eq_if_modifyHead, hsplit, if_neg (by simpa using hc),
          List.modifyHead_cons, List.mem_cons] at h
        rcases h with rfl | h
        · have hfirst : ',' ∉ first := ih List.mem_cons_self
          rw [List.mem_cons, not_or]
          exact ⟨fun heq => hc heq.symm, hfirst⟩
        · exact ih (List.mem_cons_of_mem first h)

/-- A `part` of a text between commas stands in the text without gaps. -/
theorem infix_of_mem_splitOn {s part : Text} (h : part ∈ s.splitOn ',') : part <:+: s := by
  obtain ⟨i, hi⟩ := List.mem_iff_getElem?.1 h
  have hmem : part ∈ (s.splitOn ',').intersperse [','] := by
    apply List.mem_of_getElem? (i := 2 * i)
    rw [List.getElem?_intersperse_two_mul, hi]
  have hjoin : [','].intercalate (s.splitOn ',') = s := List.intercalate_splitOn ','
  rw [← hjoin]
  exact List.infix_of_mem_flatten hmem

/-- A selector with a token in it. -/
abbrev HasToken (s : Text) : Prop := words s ≠ []

/-- A selector of one piece: a text without commas, and with a token in it. -/
structure IsSingle (s : Text) : Prop where
  /-- There is no comma. -/
  no_comma : ',' ∉ s
  /-- There is a token. -/
  has_token : HasToken s

/-- Every `piece` is a selector of one piece. -/
theorem isSingle_of_mem_pieces {s piece : Text} (h : piece ∈ pieces s) : IsSingle piece := by
  rw [pieces, List.mem_filter, List.mem_map, decide_eq_true_eq] at h
  obtain ⟨⟨part, hpart, rfl⟩, hne⟩ := h
  constructor
  · intro hmem
    have hcomma : ',' ∈ part := trim_subset part hmem
    exact not_mem_of_mem_splitOn hpart hcomma
  · intro hnil
    rw [words_trim, ← trim_eq_nil_iff] at hnil
    exact hne hnil

/-- What is left of a selector without its first token, `tail s`, has a token, if anything is left.
-/
theorem hasToken_tail {s : Text} (h : tail s ≠ []) : HasToken (tail s) := by
  intro hwords
  exact h (tail_eq_nil_iff.2 hwords)

/-- A selector `s` with a token has one, whatever stands behind a blank after it. -/
theorem HasToken.append_blank {s : Text} (hs : HasToken s) (t : Text) :
    HasToken (s ++ ' ' :: t) := by
  rw [HasToken, words_append_blank (by decide)]
  exact List.append_ne_nil_of_left_ne_nil hs (words t)

/-- Two selectors with a blank between them have the first token of `s`, and then the other tokens
of both. -/
theorem head_and_tail_append_blank {s : Text} (hs : HasToken s) (t : Text) :
    Selector.head (s ++ ' ' :: t) = Selector.head s ∧
      words (tail (s ++ ' ' :: t)) = words (tail s) ++ words t := by
  apply head_and_tail_of_words
  rw [words_append_blank (by decide), (words_eq_head_cons hs).1, List.cons_append]

namespace IsSingle

variable {s t : Text}

/-- The first token of a selector of one piece, `head s`, is such a selector. -/
theorem head (h : IsSingle s) : IsSingle (head s) := by
  have htoken := (words_eq_head_cons h.has_token).2
  refine ⟨fun hmem => h.no_comma (head_subset s hmem), ?_⟩
  rw [HasToken, words_of_isToken htoken]
  exact List.cons_ne_nil _ []

/-- What is left of a selector of one piece, `tail s`, is such a selector, if anything is left. -/
theorem tail (h : IsSingle s) (hne : tail s ≠ []) : IsSingle (tail s) :=
  ⟨fun hmem => h.no_comma (tail_subset s hmem), hasToken_tail hne⟩

/-- Two selectors of one piece make another one, `s ++ ' ' :: t`, with a blank between them. -/
theorem append_blank (hs : IsSingle s) (ht : IsSingle t) : IsSingle (s ++ ' ' :: t) := by
  constructor
  · rw [List.mem_append, List.mem_cons, not_or, not_or]
    exact ⟨hs.no_comma, by decide, ht.no_comma⟩
  · exact hs.has_token.append_blank t

end IsSingle

/-! ## Selectors without empty pieces -/

/-- Every part of a selector between commas has a token. -/
def IsFilled (s : Text) : Prop := ∀ part ∈ s.splitOn ',', words part ≠ []

/-- A selector of one piece has no empty piece: `IsFilled s`. -/
theorem IsSingle.isFilled {s : Text} (h : IsSingle s) : IsFilled s := by
  intro part hpart
  rw [List.splitOn_eq_singleton h.no_comma, List.mem_singleton] at hpart
  rw [hpart]
  exact h.has_token

/-- Where no piece is empty, there is a piece: `pieces s ≠ []`. -/
theorem IsFilled.pieces_ne_nil {s : Text} (h : IsFilled s) : pieces s ≠ [] := by
  obtain ⟨part, hpart⟩ := List.exists_mem_of_ne_nil _ (List.splitOn_ne_nil ',' s)
  have hne : trim part ≠ [] := by
    intro htrim
    exact h part hpart (trim_eq_nil_iff.1 htrim)
  have hpiece : trim part ∈ pieces s := by
    rw [pieces, List.mem_filter, decide_eq_true_eq]
    exact ⟨List.mem_map_of_mem hpart, hne⟩
  exact List.ne_nil_of_mem hpiece

/-- A comma between two selectors without empty pieces makes none. -/
theorem IsFilled.append_comma {s t : Text} (hs : IsFilled s) (ht : IsFilled t) :
    IsFilled (s ++ ',' :: ' ' :: t) := by
  intro part hpart
  rw [List.splitOn_append_cons_self, List.mem_append] at hpart
  rcases hpart with hpart | hpart
  · exact hs part hpart
  · -- The blank after the comma is put in front of the first part of `t`.
    obtain ⟨first, others, hsplit⟩ := List.exists_cons_of_ne_nil (List.splitOn_ne_nil ',' t)
    rw [List.splitOn_cons_eq_if_modifyHead, if_neg (by decide), hsplit, List.modifyHead_cons,
      List.mem_cons] at hpart
    rw [IsFilled, hsplit, List.forall_mem_cons] at ht
    rcases hpart with rfl | hpart
    · rw [words_cons_blank (by decide)]
      exact ht.1
    · exact ht.2 part hpart

/-- If `P` is kept by `s ++ ',' :: ' ' :: t`, it holds of a comma list when it holds of its
selectors. -/
theorem ofPieces_of_append_comma {P : Text → Prop}
    (hjoin : ∀ s t, P s → P t → P (s ++ ',' :: ' ' :: t)) {s : Text} {selectors : List Text}
    (hs : P s) (h : ∀ t ∈ selectors, P t) : P (ofPieces (s :: selectors)) := by
  rw [ofPieces]
  induction selectors generalizing s with
  | nil => simpa using hs
  | cons t rest ih =>
      have heq : [',', ' '].intercalate (s :: t :: rest) =
          s ++ ',' :: ' ' :: [',', ' '].intercalate (t :: rest) := by simp
      rw [List.forall_mem_cons] at h
      rw [heq]
      exact hjoin s _ hs (ih h.1 h.2)

/-! ## Paths -/

/-- The tokens of each piece of a selector. -/
def paths (s : Text) : List TokenPath := (pieces s).map words

/-- The tokens of a selector as a single path, whatever commas are in it. -/
def wholePath (s : Text) : List TokenPath := [words s]

/-- The paths of a comma list `ofPieces selectors` are the paths of the selectors. -/
theorem paths_ofPieces (selectors : List Text) :
    paths (ofPieces selectors) = selectors.flatMap paths := by
  rw [paths, pieces_ofPieces, List.map_flatMap]
  rfl

/-- A selector of one piece stands for the path of its tokens: `paths s = wholePath s`. -/
theorem paths_of_isSingle {s : Text} (h : IsSingle s) : paths s = wholePath s := by
  rw [paths, pieces_of_not_mem h.no_comma h.has_token, List.map_singleton, words_trim, wholePath]

/-- No `path` of a selector is empty. -/
theorem ne_nil_of_mem_paths {s : Text} {path : TokenPath} (h : path ∈ paths s) : path ≠ [] := by
  obtain ⟨piece, hpiece, rfl⟩ := List.mem_map.1 h
  exact (isSingle_of_mem_pieces hpiece).has_token

end Selector

end SassNesting
