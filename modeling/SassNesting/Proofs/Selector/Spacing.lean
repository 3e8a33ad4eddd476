import Mathlib.Data.List.Chain
import SassNesting.Proofs.Selector.Pieces

/-! # Blanks in a selector

The selectors of a stylesheet have plain spaces for blanks, and none of them in front (`IsSpaced`).
As long as no comma list is made of them they are also tidy: one space stands between two tokens,
and nothing around them (`IsTidy`). A tidy selector is its first token and what is left of it, put
together again with a space (`IsTidy.eq_head_or_append`), and its pieces are tidy as well. -/

namespace SassNesting

open Text

namespace Selector

variable {s t : Text}

/-! ## Selectors whose blanks are spaces -/

/-- A selector that starts with a character that is not blank, and whose blanks are plain spaces. -/
structure IsSpaced (s : Text) : Prop where
  /-- The first character is not blank. -/
  starts : ∃ c rest, s = c :: rest ∧ isBlank c = false
  /-- The blanks are spaces. -/
  eq_space : ∀ c ∈ s, isBlank c = true → c = ' '

/-- A token is spaced: `IsToken s` gives `IsSpaced s`. -/
theorem isSpaced_of_isToken (h : IsToken s) : IsSpaced s := by
  constructor
  · obtain ⟨c, rest, rfl⟩ := List.exists_cons_of_ne_nil h.ne_nil
    exact ⟨c, rest, rfl, h.not_blank c List.mem_cons_self⟩
  · intro c hc hblank
    rw [h.not_blank c hc] at hblank
    exact absurd hblank (by decide)

/-- What joins two spaced selectors to another one, `between`, may be any text whose blanks are
plain spaces. -/
theorem IsSpaced.join (hs : IsSpaced s) (between : Text)
    (hbetween : ∀ c ∈ between, isBlank c = true → c = ' ') (ht : IsSpaced t) :
    IsSpaced (s ++ between ++ t) := by
  constructor
  · obtain ⟨c, rest, rfl, hc⟩ := hs.starts
    exact ⟨c, rest ++ between ++ t, by simp, hc⟩
  · intro c hc
    rw [List.mem_append, List.mem_append] at hc
    rcases hc with (hc | hc) | hc
    · exact hs.eq_space c hc
    · exact hbetween c hc
    · exact ht.eq_space c hc

/-- A selector with `IsSpaced s` has no line feed in it. -/
theorem IsSpaced.newline_notMem (h : IsSpaced s) : '\n' ∉ s := by
  intro hmem
  exact absurd (h.eq_space '\n' hmem (by decide)) (by decide)

/-- A selector with `IsSpaced s` does not start with a space. -/
theorem IsSpaced.head?_ne_space (h : IsSpaced s) : s.head? ≠ some ' ' := by
  obtain ⟨c, rest, rfl, hc⟩ := h.starts
  intro hhead
  rw [List.head?_cons, Option.some.injEq] at hhead
  rw [hhead] at hc
  exact absurd hc (by decide)

/-! ## Tidy selectors -/

/-- A selector with one space between two of its tokens, and nothing around them. -/
structure IsTidy (s : Text) : Prop extends IsSpaced s where
  /-- The last character is not blank. -/
  ends : ∀ c, s.getLast? = some c → isBlank c = false
  /-- No two blanks stand next to each other. -/
  apart : s.IsChain fun c d => isBlank c = true → isBlank d = false

/-- A token is tidy: `IsToken s` gives `IsTidy s`. -/
theorem isTidy_of_isToken (h : IsToken s) : IsTidy s := by
  refine ⟨isSpaced_of_isToken h, ?_, ?_⟩
  · intro c hc
    exact h.not_blank c (List.mem_of_getLast? hc)
  · refine List.Pairwise.isChain ?_
    rw [List.pairwise_iff_forall_sublist]
    intro c d hsub _
    exact h.not_blank d (hsub.subset (by simp))

namespace IsTidy

/-- A tidy selector does not start with a blank. -/
theorem isBlank_of_head? (h : IsTidy s) {c : Char} (hc : s.head? = some c) : isBlank c = false := by
  obtain ⟨first, rest, rfl, hfirst⟩ := h.starts
  cases hc
  exact hfirst

/-- A tidy selector has a token. -/
theorem hasToken (h : IsTidy s) : HasToken s := by
  obtain ⟨c, rest, rfl, hc⟩ := h.starts
  exact words_ne_nil_iff.2 ⟨c, List.mem_cons_self, hc⟩

/-- A tidy selector is left as it is when it is trimmed: `trim s = s`. -/
theorem trim_eq (h : IsTidy s) : trim s = s :=
  trim_eq_self (fun _ => h.isBlank_of_head?) h.ends

/-- A tidy selector without a comma is its only piece: `pieces s = [s]`. -/
theorem pieces_eq (h : IsTidy s) (hcomma : ',' ∉ s) : pieces s = [s] := by
  rw [pieces_of_not_mem hcomma h.hasToken, h.trim_eq]

/-- Two tidy selectors make another one, `s ++ ' ' :: t`, with a space between them. -/
theorem append_blank (hs : IsTidy s) (ht : IsTidy t) : IsTidy (s ++ ' ' :: t) := by
  refine ⟨?_, ?_, ?_⟩
  · have hspace : ∀ c ∈ [' '], isBlank c = true → c = ' ' := fun c hc _ => List.mem_singleton.1 hc
    simpa using hs.toIsSpaced.join [' '] hspace ht.toIsSpaced
  · obtain ⟨c, rest, rfl, -⟩ := ht.starts
    intro d hd
    apply ht.ends
    simpa using hd
  · -- Neither neighbour of the space is blank.
    rw [List.isChain_append, List.isChain_cons]
    refine ⟨hs.apart, ⟨fun d hd _ => ht.isBlank_of_head? hd, ht.apart⟩, ?_⟩
    intro c hc d _ hblank
    rw [hs.ends c hc] at hblank
    exact absurd hblank (by decide)

/-- A `part` of a tidy selector is tidy, if it neither starts nor ends with a blank. -/
theorem of_isInfix (h : IsTidy s) {part : Text} (hpart : part <:+: s) (hne : part ≠ [])
    (hstart : ∀ c, part.head? = some c → isBlank c = false)
    (hend : ∀ c, part.getLast? = some c → isBlank c = false) : IsTidy part := by
  obtain ⟨c, rest, rfl⟩ := List.exists_cons_of_ne_nil hne
  exact ⟨⟨⟨c, rest, rfl, hstart c rfl⟩, fun d hd => h.eq_space d (hpart.subset hd)⟩, hend,
    List.IsChain.infix h.apart hpart⟩

/-- The pieces of a tidy selector are tidy. -/
theorem of_mem_pieces (h : IsTidy s) {piece : Text} (hpiece : piece ∈ pieces s) : IsTidy piece := by
  rw [pieces, List.mem_filter, List.mem_map, decide_eq_true_eq] at hpiece
  obtain ⟨⟨part, hpart, rfl⟩, hne⟩ := hpiece
  exact h.of_isInfix ((trim_isInfix part).trans (infix_of_mem_splitOn hpart)) hne
    (fun _ => isBlank_of_head?_trim) fun _ => isBlank_of_getLast?_trim

/-- Behind the first token of a tidy selector there is nothing, or a space and a tidy selector
`rest`. -/
theorem dropWhile_cases (h : IsTidy s) :
    s.dropWhile (fun c => !isBlank c) = [] ∨
      ∃ rest, s.dropWhile (fun c => !isBlank c) = ' ' :: rest ∧ IsTidy rest := by
  cases hdrop : s.dropWhile fun c => !isBlank c with
  | nil => exact Or.inl rfl
  | cons d rest =>
      have hsuffix : d :: rest <:+ s := hdrop ▸ List.dropWhile_suffix _
      have hd : isBlank d = true := by
        have := List.head?_dropWhile_not (fun c => !isBlank c) s
        simpa [hdrop] using this
      have hspace : d = ' ' := h.eq_space d (hsuffix.subset List.mem_cons_self) hd
      have hends : ∀ c, (d :: rest).getLast? = some c → isBlank c = false := by
        intro c hc
        obtain ⟨front, hfront⟩ := hsuffix
        apply h.ends
        rw [← hfront, List.getLast?_append_of_ne_nil front (List.cons_ne_nil d rest), hc]
      -- The space is not the last character, and the next one is not blank.
      obtain ⟨c, after, rfl⟩ : ∃ c after, rest = c :: after := by
        apply List.exists_cons_of_ne_nil
        rintro rfl
        rw [hends d rfl] at hd
        exact absurd hd (by decide)
      have hapart := List.IsChain.suffix h.apart hsuffix
      have hstarts : ∀ e, (c :: after).head? = some e → isBlank e = false :=
        fun e he => (List.isChain_cons.1 hapart).1 e he hd
      have hpart : c :: after <:+: s := ((List.suffix_cons d _).trans hsuffix).isInfix
      exact Or.inr ⟨c :: after, by rw [hspace],
        h.of_isInfix hpart (List.cons_ne_nil c after) hstarts hends⟩

/-- A tidy selector is `head s`, or `head s ++ ' ' :: tail s` with a tidy `tail s`. -/
theorem eq_head_or_append (h : IsTidy s) :
    (tail s = [] ∧ s = head s) ∨ (IsTidy (tail s) ∧ s = head s ++ ' ' :: tail s) := by
  have hstart : trimStart s = s := by
    obtain ⟨c, rest, rfl, hc⟩ := h.starts
    rw [trimStart, List.dropWhile_cons_of_neg (by simp [hc])]
  have hcut : s = head s ++ s.dropWhile fun c => !isBlank c := by
    rw [head, hstart]
    exact List.takeWhile_append_dropWhile.symm
  rcases h.dropWhile_cases with hdrop | ⟨rest, hdrop, hrest⟩
  · have htail : tail s = [] := by
      rw [tail, hstart, hdrop]
      rfl
    rw [hdrop, List.append_nil] at hcut
    exact Or.inl ⟨htail, hcut⟩
  · have htail : tail s = rest := by
      rw [tail, hstart, hdrop, trim_cons_blank (by decide), hrest.trim_eq]
    rw [hdrop] at hcut
    rw [htail]
    exact Or.inr ⟨hrest, hcut⟩

end IsTidy

/-! ## Selectors put together from tokens -/

/-- Tokens put together by `ofTokens` make their first token, a space, and the others put together.
-/
theorem ofTokens_cons_cons (token other : Text) (rest : List Text) :
    ofTokens (token :: other :: rest) = token ++ ' ' :: ofTokens (other :: rest) := by
  simp [ofTokens]

/-- The words of a selector are the tokens it is put together from:
`words (ofTokens tokens) = tokens`. -/
theorem words_ofTokens {tokens : List Text} (h : ∀ token ∈ tokens, IsToken token) :
    words (ofTokens tokens) = tokens := by
  induction tokens with
  | nil => simp [ofTokens]
  | cons token rest ih =>
      obtain ⟨htoken, hrest⟩ := List.forall_mem_cons.1 h
      cases rest with
      | nil => simpa [ofTokens] using words_of_isToken htoken
      | cons other rest =>
          rw [ofTokens_cons_cons, words_append_blank (by decide), words_of_isToken htoken,
            ih hrest, List.singleton_append]

/-- A selector that is put together from tokens is tidy: `IsTidy (ofTokens tokens)`. -/
theorem isTidy_ofTokens {tokens : List Text} (hne : tokens ≠ [])
    (h : ∀ token ∈ tokens, IsToken token) : IsTidy (ofTokens tokens) := by
  induction tokens with
  | nil => exact absurd rfl hne
  | cons token rest ih =>
      obtain ⟨htoken, hrest⟩ := List.forall_mem_cons.1 h
      cases rest with
      | nil => simpa [ofTokens] using isTidy_of_isToken htoken
      | cons other rest =>
          rw [ofTokens_cons_cons]
          exact (isTidy_of_isToken htoken).append_blank (ih (List.cons_ne_nil _ _) hrest)

end Selector

end SassNesting
