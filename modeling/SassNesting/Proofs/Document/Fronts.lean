import SassNesting.Proofs.Document.Completeness
import SassNesting.Proofs.Document.Lexemes

/-! # What does not depend on the text that follows

The readers look no further than they must. Up to its last mark an item is read alike whatever
follows (`Directive.exists_item_of_read`, `Block.exists_item_of_read`), so a document falls into a
front, which holds the items read and is read alike in front of any text, and a gap with the text
behind it, at which the reading goes on (`Reading.exists_front`). -/

namespace SassNesting

open Gap

/-! ## Marks -/

/-- The single characters that end the parts of a document. -/
def marks : List Char := [':', ';', '{', '}']

namespace Gap

variable {c : Char} {s front after : Text}

/-- A mark `c` is no part of a gap, nor does it complete an opening mark of a comment:
`Absent (c :: t)`. -/
theorem absent_mark_cons (hc : c ∈ marks) (t : Text) : Absent (c :: t) := by
  have hmark : c = ':' ∨ c = ';' ∨ c = '{' ∨ c = '}' := by simpa [marks] using hc
  obtain rfl | rfl | rfl | rfl := hmark <;> exact absent_cons (by decide) (by decide) t

/-- Whether a gap starts a text does not depend on what follows the first mark `c` in it. -/
theorem Absent.mark (hc : c ∈ marks) (h : Absent (front ++ c :: after)) (x : Text) :
    Absent (front ++ c :: x) := by
  refine h.left.append (fun _ => absent_mark_cons hc x) ?_
  intro hstar
  obtain rfl := Option.some.inj hstar
  exact absurd hc (by decide)

/-- Some text `own` with a gap before it: what follows `own` does not change how `read` takes the
gap. -/
theorem exists_read_append {own : Text} (hown : own ≠ []) (h : skip s = own ++ after) :
    ∃ gap, s = gap ++ (own ++ after) ∧
      ∀ x, Absent (own ++ x) → read (gap ++ (own ++ x)) = ((read s).1, own ++ x) := by
  obtain ⟨gap, hgap, hs⟩ := exists_written_skip s
  rw [h] at hgap hs
  have hclosed : Closed gap (read s).1 := hgap.toClosed (by simp [hown])
  exact ⟨gap, hs, fun x hx => read_of_written (.closed hclosed) hx⟩

/-- Some text `own` with a gap before it: what follows `own` does not change how `skip` takes the
gap. -/
theorem exists_skip_append {own : Text} (hown : own ≠ []) (h : skip s = own ++ after) :
    ∃ gap, s = gap ++ (own ++ after) ∧
      ∀ x, Absent (own ++ x) → skip (gap ++ (own ++ x)) = own ++ x := by
  obtain ⟨gap, hs, hgap⟩ := exists_read_append hown h
  exact ⟨gap, hs, fun x hx => by rw [skip, hgap x hx]⟩

/-- A text `front` up to a mark `c` with a gap before it: what follows the mark does not change how
`skip` takes the gap. -/
theorem exists_skip_mark (hc : c ∈ marks) (h : skip s = front ++ c :: after) :
    ∃ gap, s = gap ++ (front ++ c :: after) ∧
      ∀ x, skip (gap ++ (front ++ c :: x)) = front ++ c :: x := by
  have happend : ∀ x, front ++ c :: x = (front ++ [c]) ++ x := by simp
  obtain ⟨gap, hs, hgap⟩ := exists_skip_append (by simp) (h.trans (happend after))
  rw [← happend] at hs
  have habsent : Absent (front ++ c :: after) := h ▸ absent_skip s
  refine ⟨gap, hs, fun x => ?_⟩
  have hskip := hgap x (happend x ▸ habsent.mark hc x)
  rwa [← happend] at hskip

end Gap

/-! ## Runs and tokens -/

/-- A run of characters with `p` is cut off a text alike in front of all texts `rest` that begin
alike. -/
theorem span_of_head_eq {p : Char → Bool} {t rest : Text}
    (h : rest.head? = (t.dropWhile p).head?) :
    (t.takeWhile p ++ rest).takeWhile p = t.takeWhile p ∧
      (t.takeWhile p ++ rest).dropWhile p = rest := by
  have hall : ∀ c ∈ t.takeWhile p, p c = true := fun _ hc => List.mem_takeWhile_imp hc
  rw [List.takeWhile_append_of_pos hall, List.dropWhile_append_of_pos hall]
  cases rest with
  | nil => simp
  | cons c rest =>
      have hc : p c = false := by
        have hhead := List.head?_dropWhile_not p t
        rw [← h] at hhead
        simpa using hhead
      simp [hc]

/-- Whether a run starts a text depends on its first character: texts with the same `head?` agree.
-/
theorem takeWhile_ne_nil_of_head_eq {p : Char → Bool} {s t : Text} (hhead : s.head? = t.head?)
    (h : t.takeWhile p ≠ []) : s.takeWhile p ≠ [] := by
  cases t with
  | nil => simp at h
  | cons c t =>
      obtain ⟨s, rfl⟩ := List.head?_eq_some_iff.1 hhead
      by_cases hc : p c = true <;> simp_all

/-- A token in front of `rest` is one in front of every text `other` that begins alike. -/
theorem TokenWritten.of_head_eq {isChar : Char → Bool} {token : Text × Text}
    {text rest other : Text} (h : TokenWritten isChar token text rest) (hrest : rest ≠ [])
    (hhead : other.head? = rest.head?) : TokenWritten isChar token text other := by
  cases h with
  | @intro token gap blanks _ hrun habsent hgap =>
      refine .intro (hrun.of_head_eq ?_) habsent (.closed (hgap.toClosed hrest))
      cases gap with
      | nil => exact hhead
      | cons => rfl

/-- A sequence of tokens in front of `rest` is one in front of every text `other` that begins alike.
-/
theorem Sequence.of_head_eq {isChar : Char → Bool} {tokens : List (Text × Text)}
    {text rest other : Text} (h : Sequence (TokenWritten isChar) rest tokens text)
    (hrest : rest ≠ []) (hhead : other.head? = rest.head?) :
    Sequence (TokenWritten isChar) other tokens text := by
  induction h with
  | nil => exact .nil
  | @cons _ _ _ more htoken _ ih =>
      refine .cons (htoken.of_head_eq (by simp [hrest]) ?_) ih
      cases more with
      | nil => exact hhead
      | cons => rfl

/-- Tokens up to a mark `c` are read alike by `readTokens` whatever follows the mark. -/
theorem Gap.exists_readTokens_mark {isChar : Char → Bool} (hstar : isChar '*' = true) {c : Char}
    (hc : c ∈ marks) {t after : Text} {tokens : List (Text × Text)} (ht : Absent t)
    (h : readTokens isChar t = (tokens, c :: after)) :
    ∃ front, t = front ++ c :: after ∧ Sequence (TokenWritten isChar) (c :: after) tokens front ∧
      ∀ x, readTokens isChar (front ++ c :: x) = (tokens, c :: x) := by
  obtain ⟨front, hfront, htext, -, hstop⟩ := exists_sequence_readTokens isChar ht
  rw [h] at hfront htext hstop
  refine ⟨front, htext, hfront, fun x => ?_⟩
  have hend : (c :: x).takeWhile isChar = [] := by
    by_cases hchar : isChar c = true
    · simp [hchar] at hstop
    · simp [hchar]
  have hother : Sequence (TokenWritten isChar) (c :: x) tokens front :=
    hfront.of_head_eq (by simp) rfl
  exact readTokens_of_sequence hstar hother (absent_mark_cons hc x) hend

/-! ## Directives -/

namespace Directive

/-- Up to its semicolon a directive is read alike whatever follows:
`read (item ++ ';' :: x) = .ok (d, skip x)`. -/
theorem exists_item_of_ends {t after : Text} (h : Ends t .semicolon after) :
    ∃ item d, t = item ++ ';' :: after ∧ ∀ x, read (item ++ ';' :: x) = .ok (d, skip x) := by
  cases h with
  | semicolon hname hvalue =>
      set value := (skip (t.dropWhile isNameChar)).takeWhile isValueChar with hvalueEq
      have hskip : skip (t.dropWhile isNameChar) = value ++ ';' :: after := by
        rw [← hvalue, hvalueEq, List.takeWhile_append_dropWhile]
      obtain ⟨gap, hdrop, hgap⟩ := exists_skip_mark (by decide) hskip
      have hsplit : t = t.takeWhile isNameChar ++ (gap ++ (value ++ ';' :: after)) := by
        rw [← hdrop, List.takeWhile_append_dropWhile]
      refine ⟨t.takeWhile isNameChar ++ gap ++ value, ⟨t.takeWhile isNameChar,
        keptValue (t.takeWhile isNameChar) value⟩, by simpa using hsplit, fun x => ?_⟩
      have hhead : (gap ++ (value ++ ';' :: x)).head? = (t.dropWhile isNameChar).head? := by
        rw [hdrop]
        cases gap <;> cases value <;> rfl
      have hvalueHead : (';' :: x).head? =
          ((skip (t.dropWhile isNameChar)).dropWhile isValueChar).head? := by
        rw [hvalue]
        rfl
      obtain ⟨htake, hrest⟩ := span_of_head_eq hhead
      obtain ⟨hvalueTake, hvalueRest⟩ := span_of_head_eq hvalueHead
      rw [← hvalueEq] at hvalueTake hvalueRest
      simp only [List.append_assoc, read, htake, hrest, hgap, hvalueTake, hvalueRest, if_neg hname]

/-- A directive `d` that is read ends with a semicolon, and is read alike whatever follows that. -/
theorem exists_item_of_read {t rest : Text} {d : Directive} (h : read t = .ok (d, rest)) :
    ∃ item after, t = item ++ ';' :: after ∧ rest = skip after ∧ Ends t .semicolon after ∧
      ∀ x, read (item ++ ';' :: x) = .ok (d, skip x) := by
  have hread := h
  simp only [read] at h
  split at h
  · simp at h
  · rename_i hname
    split at h
    · rename_i after hafter
      have hends : Ends t .semicolon after := .semicolon hname hafter
      obtain ⟨item, d', ht, hitem⟩ := exists_item_of_ends hends
      have hsame : Except.ok (d', skip after) = Except.ok (ε := Fault) (d, rest) := by
        rw [← hitem, ← ht, hread]
      cases hsame
      exact ⟨item, after, ht, rfl, hends, hitem⟩
    · simp at h

/-- Where `readAll` has no directive and no fault, no at sign starts the text, and all of it is
left. -/
theorem eq_of_readAll_nil {t rest : Text} (h : readAll t = ([], .ok rest)) :
    rest = t ∧ t.head? ≠ some '@' := by
  by_cases hhead : t.head? = some '@'
  · obtain ⟨inside, rfl⟩ := List.head?_eq_some_iff.1 hhead
    cases hread : read inside with
    | error fault =>
        rw [readAll_of_error hread] at h
        simp at h
    | ok pair =>
        rw [readAll_of_ok hread] at h
        simp at h
  · rw [readAll_of_head_ne hhead] at h
    cases h
    exact ⟨rfl, hhead⟩

end Directive

/-! ## Declarations -/

namespace Declaration

/-- A declaration whose name and value have been read, from the text that follows its value on: it
ends with a semicolon, or in front of a brace. -/
def finish (name : Text) (value : Text × Text) : Except Fault (Declaration × Text) :=
  match value.2 with
  | ';' :: rest => .ok (⟨name, Text.trimEnd value.1⟩, skip rest)
  | '}' :: _ => .ok (⟨name, Text.trimEnd value.1⟩, value.2)
  | _ => .error ⟨.declarationEnd, value.2⟩

/-- Behind its colon a declaration goes on with its value: `read t` is `finish` of the name and of
`readValue (skip valueOn)`. -/
theorem read_of_colon {t valueOn : Text} (h : skip (t.dropWhile isNameChar) = ':' :: valueOn) :
    read t = finish (t.takeWhile isNameChar) (readValue (skip valueOn)) := by
  simp only [read, h]
  rfl

/-- Up to its colon a declaration is read alike whatever follows: for every `x` as `finish` of the
name and of `readValue (skip x)`. -/
theorem exists_front_of_colon {t valueOn : Text}
    (h : skip (t.dropWhile isNameChar) = ':' :: valueOn) :
    ∃ front, t = front ++ ':' :: valueOn ∧
      ∀ x, read (front ++ ':' :: x) = finish (t.takeWhile isNameChar) (readValue (skip x)) := by
  have hmark : skip (t.dropWhile isNameChar) = [] ++ ':' :: valueOn := h
  obtain ⟨gap, hdrop, hgap⟩ := exists_skip_mark (by decide) hmark
  simp only [List.nil_append] at hdrop hgap
  refine ⟨t.takeWhile isNameChar ++ gap, ?_, fun x => ?_⟩
  · rw [List.append_assoc, ← hdrop, List.takeWhile_append_dropWhile]
  · have hhead : (gap ++ ':' :: x).head? = (t.dropWhile isNameChar).head? := by
      rw [hdrop]
      cases gap <;> rfl
    obtain ⟨htake, hrest⟩ := span_of_head_eq hhead
    have hcolon : skip ((t.takeWhile isNameChar ++ (gap ++ ':' :: x)).dropWhile isNameChar) =
        ':' :: x := by
      rw [hrest, hgap]
    rw [List.append_assoc, read_of_colon hcolon, htake]

/-- A value up to the mark `c` after it, behind a colon and a gap, is read alike whatever follows
the mark. -/
theorem exists_front_of_value {c : Char} (hc : c ∈ marks) {valueOn after : Text}
    (h : (readValue (skip valueOn)).2 = c :: after) :
    ∃ front, valueOn = front ++ c :: after ∧
      ∀ x, readValue (skip (front ++ c :: x)) = ((readValue (skip valueOn)).1, c :: x) := by
  have htokens : readTokens isValueChar (skip valueOn) =
      ((readTokens isValueChar (skip valueOn)).1, c :: after) := by
    rw [← h]
    rfl
  obtain ⟨value, hskip, -, hvalue⟩ := exists_readTokens_mark (by decide) hc (absent_skip valueOn)
    htokens
  obtain ⟨gap, hvalueOn, hgap⟩ := exists_skip_mark hc hskip
  refine ⟨gap ++ value, by simpa using hvalueOn, fun x => ?_⟩
  rw [List.append_assoc, hgap, readValue, hvalue]
  rfl

/-- Up to the mark `c` after its value a declaration is read alike whatever follows. -/
theorem exists_front_of_end {c : Char} (hc : c ∈ marks) {t valueOn after : Text}
    (hcolon : skip (t.dropWhile isNameChar) = ':' :: valueOn)
    (hvalue : (readValue (skip valueOn)).2 = c :: after) :
    ∃ front, t = front ++ c :: after ∧
      ∀ x, read (front ++ c :: x) =
        finish (t.takeWhile isNameChar) ((readValue (skip valueOn)).1, c :: x) := by
  obtain ⟨name, ht, hname⟩ := exists_front_of_colon hcolon
  obtain ⟨value, hvalueOn, hend⟩ := exists_front_of_value hc hvalue
  refine ⟨name ++ ':' :: value, ?_, fun x => ?_⟩
  · rw [ht, hvalueOn]
    simp
  · have hassoc : name ++ ':' :: value ++ c :: x = name ++ ':' :: (value ++ c :: x) := by simp
    rw [hassoc, hname, hend]

/-- A declaration `d` is read from the text `item` up to a mark, its semicolon or the brace that
ends its block, alike whatever follows the mark. -/
theorem exists_item_of_read {t rest : Text} {d : Declaration} (h : read t = .ok (d, rest)) :
    (∃ item after, t = item ++ ';' :: after ∧ rest = skip after ∧
      ∀ x, read (item ++ ';' :: x) = .ok (d, skip x)) ∨
    (∃ item after, t = item ++ '}' :: after ∧ rest = '}' :: after ∧
      ∀ x, read (item ++ '}' :: x) = .ok (d, '}' :: x)) := by
  have hread := h
  simp only [read] at h
  split at h
  · rename_i valueOn hcolon
    split at h
    · rename_i after hend
      obtain ⟨item, ht, hitem⟩ := exists_front_of_end (by decide) hcolon hend
      cases h
      exact Or.inl ⟨item, after, ht, rfl, hitem⟩
    · rename_i after hend
      obtain ⟨item, ht, hitem⟩ := exists_front_of_end (by decide) hcolon hend
      cases h
      exact Or.inr ⟨item, after, ht, hend, hitem⟩
    · simp at h
  · simp at h

/-- What follows a declaration that is read may be exchanged behind `own`, for any text that starts
no gap there. -/
theorem exists_front_of_read {t own after : Text} {d : Declaration} (hown : own ≠ [])
    (h : read t = .ok (d, own ++ after)) :
    ∃ front, t = front ++ (own ++ after) ∧
      ∀ x, Absent (own ++ x) → read (front ++ (own ++ x)) = .ok (d, own ++ x) := by
  rcases exists_item_of_read h with
    ⟨item, between, ht, hrest, hitem⟩ | ⟨item, rest, ht, hrest, hitem⟩
  · obtain ⟨gap, hbetween, hgap⟩ := exists_skip_append hown hrest.symm
    refine ⟨item ++ ';' :: gap, by simp [ht, hbetween], fun x hx => ?_⟩
    have hassoc : item ++ ';' :: gap ++ (own ++ x) = item ++ ';' :: (gap ++ (own ++ x)) := by simp
    rw [hassoc, hitem, hgap x hx]
  · obtain ⟨c, own, rfl⟩ := List.exists_cons_of_ne_nil hown
    rw [List.cons_append, List.cons.injEq] at hrest
    obtain ⟨rfl, rfl⟩ := hrest
    exact ⟨item, ht, fun x _ => hitem (own ++ x)⟩

end Declaration

/-! ## Blocks -/

namespace Block

/-- A fault that `Declaration.read` meets is one of `readDeclarations`. -/
theorem readDeclarations_of_read_error {t : Text} {fault : Fault}
    (hname : t.takeWhile Declaration.isNameChar ≠ []) (h : Declaration.read t = .error fault) :
    readDeclarations t = .error fault := by
  unfold readDeclarations
  rw [if_neg hname]
  split <;> simp_all

/-- Where `Declaration.read` gives `d`, the others are read behind it: `readDeclarations t` puts `d`
in front of those of `rest`. -/
theorem readDeclarations_of_read_ok {t rest : Text} {d : Declaration}
    (hname : t.takeWhile Declaration.isNameChar ≠ []) (h : Declaration.read t = .ok (d, rest)) :
    readDeclarations t =
      (readDeclarations rest).map fun (ds, after) => (d :: ds, after) := by
  cases hrest : readDeclarations rest with
  | error fault =>
      unfold readDeclarations
      rw [if_neg hname]
      split <;> simp_all [Except.map]
  | ok pair => exact readDeclarations_of_ok hname h hrest

/-- Up to the brace that ends their block, declarations `ds` are read alike whatever follows. -/
theorem exists_item_of_readDeclarations {t rest : Text} {ds : List Declaration} (ht : Absent t)
    (h : readDeclarations t = .ok (ds, rest)) :
    ∃ item after, t = item ++ '}' :: after ∧ rest = skip after ∧
      EndsInside t .closeBrace after ∧
      ∀ x, readDeclarations (item ++ '}' :: x) = .ok (ds, skip x) := by
  -- The induction is on the declarations; what is read behind the first one is not empty, so the
  -- first one is read alike as long as the text behind it begins alike.
  fun_induction readDeclarations t generalizing ds rest with
  | case1 after hname =>
      cases h
      exact ⟨[], after, rfl, rfl, .brace, readDeclarations_brace⟩
  | case2 => simp at h
  | case3 => simp at h
  | case4 => simp at h
  | case5 t hname d between hread ds' rest' hrec ih =>
      cases h
      obtain ⟨_, -, -, hbetween⟩ := Declaration.exists_written_of_read ht hname hread
      obtain ⟨item, after, rfl, rfl, hends, hitem⟩ := ih hbetween hrec
      rw [List.append_cons] at hread
      obtain ⟨front, hfront, hfirst⟩ := Declaration.exists_front_of_read (by simp) hread
      rw [← List.append_cons] at hread hfront
      refine ⟨front ++ item, after, by rw [hfront, List.append_assoc], rfl,
        .later hname hread hends, fun x => ?_⟩
      have hbehind : Absent (item ++ ['}'] ++ x) := List.append_cons item '}' x ▸ hbetween.mark
        (by decide) x
      have hstart : (front ++ item ++ ['}'] ++ x).takeWhile Declaration.isNameChar ≠ [] := by
        refine takeWhile_ne_nil_of_head_eq ?_ hname
        rw [hfront]
        cases front <;> cases item <;> rfl
      have hdeclaration := hfirst x hbehind
      simp only [List.append_assoc, List.singleton_append] at hstart hdeclaration ⊢
      rw [readDeclarations_of_read_ok hstart hdeclaration, hitem x]
      rfl

/-- A block whose selector has been read, from the text that starts with its first declaration on.
-/
def finish (tokens : List Text) (t : Text) : Except Ending (Block × Text) :=
  match readDeclarations t with
  | .error fault => .error (.fault fault)
  | .ok (ds, rest) => .ok (⟨Selector.ofTokens tokens, ds⟩, rest)

/-- Behind the brace after a selector within `maxSelectorDepth`, a block goes on with its
declarations: `read t = finish tokens (skip inside)`. -/
theorem read_of_brace {t inside : Text} {tokens : List Text}
    (h : readSelector t = (tokens, '{' :: inside)) (hne : tokens ≠ [])
    (hdepth : Selector.depth (Selector.ofTokens tokens) ≤ maxSelectorDepth) :
    read t = finish tokens (skip inside) := by
  obtain ⟨token, more, rfl⟩ := List.exists_cons_of_ne_nil hne
  simp only [read, h, if_neg (Nat.not_lt.2 hdepth)]
  rfl

/-- The declarations of a block that `finish` gives are read by `readDeclarations`, up to its brace.
-/
theorem exists_declarations_of_finish {tokens : List Text} {t rest : Text} {b : Block}
    (h : finish tokens t = .ok (b, rest)) :
    ∃ ds, readDeclarations t = .ok (ds, rest) ∧ b = ⟨Selector.ofTokens tokens, ds⟩ := by
  unfold finish at h
  split at h
  · cases h
  · rename_i ds after hds
    cases h
    exact ⟨ds, hds, rfl⟩

/-- A fault of `finish`, behind the selector of a block, is one of `readDeclarations`. -/
theorem readDeclarations_of_finish_error {tokens : List Text} {t : Text} {fault : Fault}
    (h : finish tokens t = .error (.fault fault)) : readDeclarations t = .error fault := by
  unfold finish at h
  split at h
  · rename_i other hother
    cases h
    exact hother
  · cases h

/-- The cases of `Block.read t`: no block is read, without a fault; or there is a brace after a
selector, which exceeds `maxSelectorDepth` or is within it. -/
theorem read_cases (t : Text) :
    (∃ ending, read t = .error ending ∧ ∀ fault, ending ≠ .fault fault) ∨
      ∃ tokens inside, readSelector t = (tokens, '{' :: inside) ∧ tokens ≠ [] ∧
        (maxSelectorDepth < Selector.depth (Selector.ofTokens tokens) ∧
            read t = .error (.fault ⟨.shorterSelector, '{' :: inside⟩) ∨
          Selector.depth (Selector.ofTokens tokens) ≤ maxSelectorDepth ∧
            read t = finish tokens (skip inside)) := by
  generalize hread : read t = result
  simp only [read] at hread
  split at hread
  · exact Or.inl ⟨_, hread.symm, by simp⟩
  · exact Or.inl ⟨_, hread.symm, by simp⟩
  · rename_i inside hinside hne
    refine Or.inr ⟨(readSelector t).1, inside, by rw [← hinside], hne, ?_⟩
    split at hread
    · rename_i hdepth
      exact Or.inl ⟨hdepth, hread.symm⟩
    · rename_i hdepth
      exact Or.inr ⟨Nat.le_of_not_lt hdepth, hread.symm⟩
  · exact Or.inl ⟨_, hread.symm, by simp⟩

/-- Up to the brace behind it a selector is read alike by `readSelector` whatever follows. -/
theorem exists_front_of_brace {t inside : Text} {tokens : List Text} (ht : Absent t)
    (h : readSelector t = (tokens, '{' :: inside)) :
    ∃ front, t = front ++ '{' :: inside ∧
      ∀ x, readSelector (front ++ '{' :: x) = (tokens, '{' :: x) := by
  simp only [readSelector, Prod.mk.injEq] at h
  have htokens : readTokens isSelectorChar t =
      ((readTokens isSelectorChar t).1, '{' :: inside) := by
    rw [← h.2]
  obtain ⟨front, hfront, -, hselector⟩ := exists_readTokens_mark (by decide) (by decide) ht htokens
  refine ⟨front, hfront, fun x => ?_⟩
  simp only [readSelector, hselector, h.1]

/-- A block `b` that is read ends with a brace, and is read alike whatever follows that. -/
theorem exists_item_of_read {t rest : Text} {b : Block} (ht : Absent t)
    (h : read t = .ok (b, rest)) :
    ∃ item after, t = item ++ '}' :: after ∧ rest = skip after ∧ Ends t .closeBrace after ∧
      ∀ x, read (item ++ '}' :: x) = .ok (b, skip x) := by
  rcases read_cases t with ⟨ending, hread, -⟩ | ⟨tokens, inside, hselector, hne, hread⟩
  · rw [h] at hread
    cases hread
  rcases hread with ⟨-, hread⟩ | ⟨hdepth, hread⟩
  · rw [h] at hread
    cases hread
  obtain ⟨ds, hds, rfl⟩ := exists_declarations_of_finish (hread.symm.trans h)
  obtain ⟨item, after, hskip, hrest, hends, hitem⟩ :=
    exists_item_of_readDeclarations (absent_skip inside) hds
  obtain ⟨front, hfront, htokens⟩ := exists_front_of_brace ht hselector
  obtain ⟨gap, hgap, hskipItem⟩ := exists_skip_mark (by decide) hskip
  refine ⟨front ++ '{' :: gap ++ item, after, ?_, hrest,
    .inside hselector hne hdepth hends, fun x => ?_⟩
  · rw [hfront, hgap]
    simp
  · have hassoc : front ++ '{' :: gap ++ item ++ '}' :: x =
        front ++ '{' :: (gap ++ (item ++ '}' :: x)) := by simp
    rw [hassoc, read_of_brace (htokens _) hne hdepth, hskipItem, finish, hitem]

end Block

/-! ## Documents -/

/-- The directives `ds` of a text `s` fall into a `front`, which is read alike whatever follows, and
what is behind the gap `after` them. -/
theorem Directive.exists_front_of_readAll {s : Text} {ds : List Directive}
    {result : Except Fault Text} (h : readAll (skip s) = (ds, result)) :
    ∃ front after, s = front ++ after ∧ readAll (skip after) = ([], result) ∧
      (front = [] ∨ EndsInAll (skip s) .semicolon after) ∧
      ∀ x, readAll (skip (front ++ x)) = (ds ++ (readAll (skip x)).1, (readAll (skip x)).2) := by
  generalize hs : skip s = t at h
  fun_induction readAll t generalizing s ds with
  | case1 t fault hread =>
      cases h
      exact ⟨[], s, rfl, by rw [hs, readAll_of_error hread], Or.inl rfl, fun x => rfl⟩
  | case2 t d rest hread ds' result' hrec ih =>
      cases h
      obtain ⟨item, between, rfl, rfl, hends, hitem⟩ := exists_item_of_read hread
      obtain ⟨front, after, rfl, hstop, hlast, hfront⟩ := ih rfl hrec
      have hat : skip s = '@' :: (item ++ [';']) ++ (front ++ after) := by simpa using hs
      obtain ⟨gap, hgap, hskip⟩ := exists_skip_append (by simp) hat
      refine ⟨gap ++ '@' :: (item ++ ';' :: front), after, by simp [hgap], hstop, Or.inr ?_,
        fun x => ?_⟩
      · rcases hlast with rfl | hlast
        · exact .first hends
        · exact .later hread hlast
      · have hassoc : gap ++ '@' :: (item ++ ';' :: front) ++ x =
            gap ++ ('@' :: (item ++ [';']) ++ (front ++ x)) := by simp
        have hfirst : '@' :: (item ++ [';']) ++ (front ++ x) =
            '@' :: (item ++ ';' :: (front ++ x)) := by simp
        rw [hassoc, hskip _ (absent_cons (by decide) (by decide) _), hfirst,
          readAll_of_ok (hitem _), hfront]
        rfl
  | case3 t hhead =>
      cases h
      refine ⟨[], s, rfl, ?_, Or.inl rfl, fun x => rfl⟩
      rw [hs]
      apply readAll_of_head_ne
      intro hat
      obtain ⟨rest, rfl⟩ := List.head?_eq_some_iff.1 hat
      exact hhead rest rfl

/-- The blocks `bs` of a text `s` fall into a `front`, which is read alike whatever follows, and
what is behind the gap `after` them. -/
theorem Block.exists_front_of_readAll {s : Text} {bs : List Block} {ending : Ending}
    (h : readAll (skip s) = (bs, ending)) :
    ∃ front after, s = front ++ after ∧ read (skip after) = .error ending ∧
      (front = [] ∧ bs = [] ∨ bs ≠ [] ∧ EndsInAll (skip s) .closeBrace after ∧
        ∀ x, (skip (front ++ x)).head? = (skip s).head?) ∧
      ∀ x, readAll (skip (front ++ x)) = (bs ++ (readAll (skip x)).1, (readAll (skip x)).2) := by
  have habsent := absent_skip s
  generalize hs : skip s = t at h habsent
  fun_induction readAll t generalizing s bs with
  | case1 t ending' hread =>
      cases h
      exact ⟨[], s, rfl, by rw [hs, hread], Or.inl ⟨rfl, rfl⟩, fun x => rfl⟩
  | case2 t b rest hread bs' ending' hrec ih =>
      cases h
      obtain ⟨item, between, rfl, rfl, hends, hitem⟩ := exists_item_of_read habsent hread
      obtain ⟨front, after, rfl, hstop, hlast, hfront⟩ := ih rfl hrec (absent_skip between)
      obtain ⟨gap, hgap, hskip⟩ := exists_skip_mark (by decide) hs
      refine ⟨gap ++ (item ++ '}' :: front), after, by simp [hgap], hstop,
        Or.inr ⟨List.cons_ne_nil b bs', ?_, fun x => ?_⟩, fun x => ?_⟩
      · rcases hlast with ⟨rfl, -⟩ | ⟨-, hlast, -⟩
        · exact .first hends
        · exact .later hread hlast
      · have hassoc : gap ++ (item ++ '}' :: front) ++ x =
            gap ++ (item ++ '}' :: (front ++ x)) := by
          simp
        rw [hassoc, hskip]
        cases item <;> rfl
      · have hassoc : gap ++ (item ++ '}' :: front) ++ x =
            gap ++ (item ++ '}' :: (front ++ x)) := by
          simp
        rw [hassoc, hskip, readAll_of_ok (hitem _), hfront]
        rfl

namespace Reading

/-- A reading `r`, and one that goes on where it stops. -/
def followedBy (r s : Reading) : Reading :=
  ⟨r.directives ++ s.directives, r.blocks ++ s.blocks, s.ending⟩

/-- Directives `ds` in front of those of a text `x` are directives in front of `ofText x`. -/
theorem ofText_of_directives {t x : Text} {ds : List Directive}
    (h : Directive.readAll (skip t) =
      (ds ++ (Directive.readAll (skip x)).1, (Directive.readAll (skip x)).2)) (ending : Ending) :
    ofText t = followedBy ⟨ds, [], ending⟩ (ofText x) := by
  simp only [ofText, h]
  rcases Directive.readAll (skip x) with ⟨more, fault | rest⟩ <;> rfl

/-- A reading without directives is one of blocks: without an at sign `ofText t` is what
`Block.readAll` gives. -/
theorem ofText_of_head_ne {t : Text} (h : (skip t).head? ≠ some '@') :
    ofText t = ⟨[], (Block.readAll (skip t)).1, (Block.readAll (skip t)).2⟩ := by
  rw [ofText, Directive.readAll_of_head_ne h]

/-- A document `t` falls into a `front` that holds its items, and the text `after` them, where the
reading stops. In front of another text `x` the front is read alike, unless `x` brings directives
behind blocks. -/
theorem exists_front (t : Text) :
    ∃ front after, t = front ++ after ∧ (front = [] ∨ ∃ l, Ends t l after) ∧
      ((∃ fault, (ofText t).ending = .fault fault ∧
          Directive.readAll (skip after) = ([], .error fault)) ∨
        Block.read (skip after) = .error (ofText t).ending) ∧
      ∀ x, (ofText t).blocks = [] ∨ (skip x).head? ≠ some '@' →
        ofText (front ++ x) = (ofText t).followedBy (ofText x) := by
  rcases hread : Directive.readAll (skip t) with ⟨ds, result⟩
  obtain ⟨first, middle, rfl, hstop, hfirst, hdirectives⟩ :=
    Directive.exists_front_of_readAll hread
  have hends : first = [] ∨ ∃ l, Ends (first ++ middle) l middle :=
    hfirst.imp_right fun hends => ⟨.semicolon, .directive hends⟩
  cases result with
  | error fault =>
      have hreading : ofText (first ++ middle) = ⟨ds, [], .fault fault⟩ := by
        rw [ofText, hread]
      refine ⟨first, middle, rfl, hends, Or.inl ⟨fault, by rw [hreading], hstop⟩, fun x _ => ?_⟩
      rw [hreading]
      exact ofText_of_directives (hdirectives x) _
  | ok rest =>
      obtain ⟨rfl, hhead⟩ := Directive.eq_of_readAll_nil hstop
      rcases hblocks : Block.readAll (skip middle) with ⟨bs, ending⟩
      obtain ⟨second, after, rfl, hend, hsecond, hfront⟩ := Block.exists_front_of_readAll hblocks
      have hreading : ofText (first ++ (second ++ after)) = ⟨ds, bs, ending⟩ := by
        rw [ofText, hread]
        simp only [hblocks]
      refine ⟨first ++ second, after, by simp, ?_, Or.inr (by rw [hreading]; exact hend),
        fun x hx => ?_⟩
      · rcases hsecond with ⟨rfl, -⟩ | ⟨-, hlast, -⟩
        · simpa using hends
        · exact Or.inr ⟨.closeBrace, .block hread hlast⟩
      · rw [hreading] at hx ⊢
        rw [List.append_assoc, ofText_of_directives (hdirectives (second ++ x)) ending]
        rcases hsecond with ⟨rfl, rfl⟩ | ⟨hne, -, hstart⟩
        · rfl
        · -- Behind blocks no directives may come, so both texts are read as blocks.
          have hother : (skip (second ++ x)).head? ≠ some '@' := by
            rw [hstart]
            exact hhead
          rw [ofText_of_head_ne hother, ofText_of_head_ne (hx.resolve_left hne), hfront]
          simp [followedBy]

/-- A closed gap is a document without items: `ofText gap = ⟨[], [], .complete⟩`. -/
theorem ofText_of_closed {gap blanks : Text} (h : Closed gap blanks) :
    ofText gap = ⟨[], [], .complete⟩ ∧ skip gap = [] := by
  have hskip : skip gap = [] := by
    simpa using skip_of_written (.closed h) absent_nil
  refine ⟨?_, hskip⟩
  rw [ofText_of_head_ne (by simp [hskip]), hskip,
    Block.readAll_of_error (Block.read_of_ending_written .complete).2]

/-- A document `t` can be cut where its reading stops: in front of the cut `front` is a document
with the same items, which is read to its end. -/
theorem exists_cut (t : Text) :
    ∃ front tail, t = front ++ tail ∧ Absent tail ∧
      ((∃ fault, (ofText t).ending = .fault fault ∧
          Directive.readAll tail = ([], .error fault)) ∨
        Block.read tail = .error (ofText t).ending) ∧
      ofText front = ⟨(ofText t).directives, (ofText t).blocks, .complete⟩ := by
  obtain ⟨before, after, ht, -, hstop, hbefore⟩ := exists_front t
  obtain ⟨gap, hgap, hafter⟩ := exists_written_skip after
  refine ⟨before ++ gap, skip after, ?_, absent_skip after, hstop, ?_⟩
  · rw [ht, List.append_assoc, ← hafter]
  by_cases hnil : skip after = []
  · -- Nothing is cut off, so the document itself is read to its end.
    have hending : (ofText t).ending = .complete := by
      rw [hnil, (Block.read_of_ending_written .complete).2,
        Directive.readAll_of_head_ne (by simp)] at hstop
      rcases hstop with ⟨fault, -, hread⟩ | hread
      · cases hread
      · exact (Except.error.inj hread).symm
    rw [hnil, List.append_nil] at hafter
    rw [← hafter, ← ht, ← hending]
  · obtain ⟨hempty, hskip⟩ := ofText_of_closed (hgap.toClosed hnil)
    rw [hbefore gap (Or.inr (by simp [hskip])), hempty]
    simp [followedBy]

end Reading

end SassNesting
