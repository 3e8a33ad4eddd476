import SassNesting.Proofs.Document.Fronts

/-! # Exchanging the text behind a lexeme

When a reader has taken a lexeme from a text, all it learns from the text behind it is the gap there
and what is left behind that gap, and, if the lexeme is a run, the first character. So the text
behind a lexeme may be exchanged for another one in which the same is found: the readers of tokens,
items and documents then read what they read before (`Reading.ofText_exchange`). -/

namespace SassNesting

open Gap

namespace Gap

/-! ## Exchangeable texts -/

/-- Texts with the same `front` begin alike, if it is not empty. -/
theorem head?_append_eq {front : Text} (hne : front ≠ []) (s t : Text) :
    (front ++ s).head? = (front ++ t).head? := by
  obtain ⟨c, front, rfl⟩ := List.exists_cons_of_ne_nil hne
  rfl

/-- Behind a lexeme of the given kind `other` is read like `after`: it starts with the same blanks
and is left with the same text behind its gap. -/
structure Exchange (l : Lexeme) (after other : Text) : Prop where
  /-- The gap at the start has the same blanks, and the same text is left behind it. -/
  read_eq : read other = read after
  /-- A run ends in front of the one as in front of the other. -/
  head_eq : l.isRun = true → other.head? = after.head?
  /-- No opening mark of a comment is completed. -/
  not_star : other.head? ≠ some '*'

/-- No gap begins with a star, so none does with `rest` behind it. -/
theorem Closed.head_ne_star {gap blanks rest : Text} (h : Closed gap blanks)
    (hrest : rest.head? ≠ some '*') : (gap ++ rest).head? ≠ some '*' := by
  cases h with
  | nil => exact hrest
  | blank hc =>
      intro hstar
      obtain rfl := Option.some.inj hstar
      exact absurd hc (by decide)
  | comment => simp

namespace Exchange

variable {l : Lexeme} {after other front : Text}

/-- The same text is left behind the gaps: `skip other = skip after`. -/
theorem skip_eq (h : Exchange l after other) : skip other = skip after := by
  rw [skip, h.read_eq, skip]

/-- Where no gap starts with `front ++ after`, none starts with `front ++ other`. -/
theorem absent (h : Exchange l after other) (hfront : front ≠ []) (ht : Absent (front ++ after)) :
    Absent (front ++ other) :=
  ht.left.append (fun hnil => absurd hnil hfront) h.not_star

end Exchange

/-- The text `after` ends `t`, and what a reader makes of `t` it makes of all texts in which `after`
is exchanged behind a lexeme of the given kind. -/
def Exchangeable {α : Type} (reader : Text → α) (l : Lexeme) (t after : Text) : Prop :=
  ∃ front, front ≠ [] ∧ t = front ++ after ∧
    ∀ other, Exchange l after other → reader (front ++ other) = reader t

namespace Exchangeable

variable {α β : Type} {reader : Text → α} {reader' : Text → β} {l : Lexeme} {t after : Text}

/-- What depends on `reader` and on the first character may be exchanged as well. -/
theorem of_imp (h : Exchangeable reader l t after)
    (himp : ∀ s, s.head? = t.head? → reader s = reader t → reader' s = reader' t) :
    Exchangeable reader' l t after := by
  obtain ⟨front, hne, rfl, hread⟩ := h
  exact ⟨front, hne, rfl, fun other hother =>
    himp _ (head?_append_eq hne other after) (hread other hother)⟩

/-- Behind a `front` the text may be exchanged too, if what `reader'` makes of it depends on what
`reader` makes of what follows. -/
theorem behind (h : Exchangeable reader l t after) (front : Text)
    (himp : ∀ s, reader s = reader t → reader' (front ++ s) = reader' (front ++ t)) :
    Exchangeable reader' l (front ++ t) after := by
  obtain ⟨own, hne, rfl, hread⟩ := h
  refine ⟨front ++ own, by simp [hne], by rw [List.append_assoc], fun other hother => ?_⟩
  rw [List.append_assoc]
  exact himp _ (hread other hother)

/-- Behind a gap the text may be exchanged too, and `read` gives the same blanks of the gap. -/
theorem behind_gap (h : Exchangeable reader l (skip t) after) :
    Exchangeable (fun s => ((read s).1, reader (skip s))) l t after := by
  obtain ⟨own, hne, hskip, hread⟩ := h
  obtain ⟨gap, ht, hgap⟩ := exists_read_append hne hskip
  refine ⟨gap ++ own, by simp [hne], by rw [ht, List.append_assoc], fun other hother => ?_⟩
  have habsent : Absent (own ++ other) := hother.absent hne (hskip ▸ absent_skip t)
  have hbehind : skip (gap ++ (own ++ other)) = own ++ other := by
    rw [skip, hgap other habsent]
  simp only [List.append_assoc, hgap other habsent, hbehind, hread other hother]

/-- Behind a run of characters with `p` the text may be exchanged too. -/
theorem behind_run {p : Char → Bool} (h : Exchangeable reader l (t.dropWhile p) after) :
    Exchangeable (fun s => (s.takeWhile p, reader (s.dropWhile p))) l t after := by
  obtain ⟨own, hne, hdrop, hread⟩ := h
  refine ⟨t.takeWhile p ++ own, by simp [hne], ?_, fun other hother => ?_⟩
  · rw [List.append_assoc, ← hdrop, List.takeWhile_append_dropWhile]
  · have hhead : (own ++ other).head? = (t.dropWhile p).head? :=
      hdrop ▸ head?_append_eq hne other after
    obtain ⟨htake, hrest⟩ := span_of_head_eq hhead
    simp only [List.append_assoc, htake, hrest, hread other hother]

/-- Right behind a run, that is for `l.isRun`, the text may be exchanged. -/
theorem of_run {p : Char → Bool} (hl : l.isRun = true) (hne : t.takeWhile p ≠ []) :
    Exchangeable (fun s => (s.takeWhile p, read (s.dropWhile p))) l t (t.dropWhile p) := by
  refine ⟨t.takeWhile p, hne, List.takeWhile_append_dropWhile.symm, fun other hother => ?_⟩
  obtain ⟨htake, hrest⟩ := span_of_head_eq (hother.head_eq hl)
  simp only [htake, hrest, hother.read_eq]

/-- Right behind a mark `c` the text may be exchanged, if `reader` skips its gap there. -/
theorem of_mark {front : Text} {c : Char} (next : Text → α) (ht : t = front ++ c :: after)
    (h : ∀ x, reader (front ++ c :: x) = next (skip x)) : Exchangeable reader l t after := by
  refine ⟨front ++ [c], by simp, by simp [ht], fun other hother => ?_⟩
  rw [List.append_assoc, List.singleton_append, ht, h, h, hother.skip_eq]

end Exchangeable

/-! ## Tokens -/

/-- Where a token ends the text may be exchanged for `readTokens`. -/
theorem TokenEnds.exchangeable {isChar : Char → Bool} {l : Lexeme} (hl : l.isRun = true)
    {t after : Text} (h : TokenEnds isChar t after) :
    Exchangeable (readTokens isChar) l t after := by
  induction h with
  | first hne hafter =>
      subst hafter
      refine (Exchangeable.of_run hl hne).of_imp fun s _ hs => ?_
      obtain ⟨htake, hgap⟩ := Prod.mk.inj hs
      rw [readTokens, readTokens, htake, hgap, if_neg hne, if_neg hne]
  | @later t after hne _ ih =>
      refine ih.behind_gap.behind_run.of_imp fun s _ hs => ?_
      obtain ⟨htake, hgap⟩ := Prod.mk.inj hs
      obtain ⟨hblanks, hrest⟩ := Prod.mk.inj hgap
      rw [readTokens, readTokens, htake, if_neg hne, if_neg hne]
      change ((_, _) :: (readTokens isChar (skip _)).1, (readTokens isChar (skip _)).2) = _
      rw [hblanks, hrest]
      rfl

end Gap

/-! ## Directives -/

namespace Directive

variable {l : Lexeme} {t after : Text}

/-- Where a lexeme of a directive ends the text may be exchanged for `Directive.read`. -/
theorem Ends.exchangeable (h : Ends t l after) : Exchangeable read l t after := by
  cases h with
  | name hne hafter =>
      subst hafter
      refine (Exchangeable.of_run rfl hne).of_imp fun s _ hs => ?_
      obtain ⟨htake, hgap⟩ := Prod.mk.inj hs
      simp only [read, skip, htake, hgap, if_neg hne]
  | semicolon hname hvalue =>
      obtain ⟨item, d, ht, hitem⟩ := exists_item_of_ends (.semicolon hname hvalue)
      exact .of_mark (fun rest => .ok (d, rest)) ht hitem

/-- Directives are read alike by `readAll` if the first one is by `read`. -/
theorem readAll_of_read_eq {s : Text} (h : read s = read t) :
    readAll ('@' :: s) = readAll ('@' :: t) := by
  cases hread : read t with
  | error fault => rw [readAll_of_error hread, readAll_of_error (h.trans hread)]
  | ok pair => rw [readAll_of_ok hread, readAll_of_ok (h.trans hread)]

/-- Where a lexeme of directives ends the text may be exchanged for `Directive.readAll`. -/
theorem EndsInAll.exchangeable (h : EndsInAll t l after) : Exchangeable readAll l t after := by
  induction h with
  | first hends => exact hends.exchangeable.behind ['@'] fun s hs => readAll_of_read_eq hs
  | later hread _ ih =>
      obtain ⟨item, between, rfl, rfl, -, hitem⟩ := exists_item_of_read hread
      have happend : ∀ x, '@' :: (item ++ ';' :: x) = '@' :: (item ++ [';']) ++ x := by simp
      rw [happend]
      refine ih.behind_gap.behind _ fun s hs => ?_
      obtain ⟨-, hrest⟩ := Prod.mk.inj hs
      rw [← happend, ← happend, readAll_of_ok (hitem s), readAll_of_ok hread, hrest]

end Directive

/-! ## Declarations -/

namespace Declaration

variable {l : Lexeme} {t after : Text}

/-- Where a lexeme of a declaration ends the text may be exchanged for `Declaration.read`. -/
theorem Ends.exchangeable (hname : t.takeWhile isNameChar ≠ []) (h : Ends t l after) :
    Exchangeable read l t after := by
  cases h with
  | name hafter =>
      subst hafter
      refine (Exchangeable.of_run rfl hname).of_imp fun s _ hs => ?_
      obtain ⟨htake, hgap⟩ := Prod.mk.inj hs
      simp only [read, skip, htake, hgap]
  | colon hcolon =>
      obtain ⟨front, ht, hfront⟩ := exists_front_of_colon hcolon
      exact .of_mark (fun s => finish (t.takeWhile isNameChar) (readValue s)) ht hfront
  | value hcolon hvalue =>
      obtain ⟨front, ht, hfront⟩ := exists_front_of_colon hcolon
      rw [List.append_cons] at ht
      rw [ht]
      refine (hvalue.exchangeable rfl).behind_gap.behind _ fun s hs => ?_
      obtain ⟨-, htokens⟩ := Prod.mk.inj hs
      rw [← List.append_cons, ← List.append_cons, hfront, hfront, readValue, htokens, ← readValue]
  | @semicolon valueOn _ hcolon hvalue =>
      obtain ⟨front, ht, hfront⟩ := exists_front_of_end (by decide) hcolon hvalue
      exact .of_mark (fun rest => .ok
        (⟨t.takeWhile isNameChar, Text.trimEnd (readValue (skip valueOn)).1⟩, rest)) ht hfront

end Declaration

/-! ## Blocks -/

namespace Block

variable {l : Lexeme} {t after : Text}

/-- Declarations are read alike by `readDeclarations` if the first one is by `Declaration.read`. -/
theorem readDeclarations_of_read_eq {s : Text} (hs : s.takeWhile Declaration.isNameChar ≠ [])
    (ht : t.takeWhile Declaration.isNameChar ≠ []) (h : Declaration.read s = Declaration.read t) :
    readDeclarations s = readDeclarations t := by
  cases hread : Declaration.read t with
  | error fault =>
      rw [readDeclarations_of_read_error ht hread,
        readDeclarations_of_read_error hs (h.trans hread)]
  | ok pair =>
      rw [readDeclarations_of_read_ok ht hread, readDeclarations_of_read_ok hs (h.trans hread)]

/-- Where a lexeme between the braces of a block ends the text may be exchanged for
`readDeclarations`. -/
theorem EndsInside.exchangeable (ht : Absent t) (h : EndsInside t l after) :
    Exchangeable readDeclarations l t after := by
  induction h with
  | first hname hends =>
      refine (hends.exchangeable hname).of_imp fun s hhead hs => ?_
      exact readDeclarations_of_read_eq (takeWhile_ne_nil_of_head_eq hhead hname) hname hs
  | @later t rest after d l hname hread _ ih =>
      obtain ⟨_, -, -, hrest⟩ := Declaration.exists_written_of_read ht hname hread
      obtain ⟨own, hne, rfl, hown⟩ := ih hrest
      obtain ⟨front, rfl, hfront⟩ := Declaration.exists_front_of_read hne hread
      -- The declaration is read alike, since what follows it begins alike.
      refine ⟨front ++ own, by simp [hne], by rw [List.append_assoc], fun other hother => ?_⟩
      have hfirst := hfront other (hother.absent hne hrest)
      have hstart : (front ++ (own ++ other)).takeWhile Declaration.isNameChar ≠ [] := by
        refine takeWhile_ne_nil_of_head_eq ?_ hname
        rw [← List.append_assoc, ← List.append_assoc]
        exact head?_append_eq (by simp [hne]) other after
      rw [List.append_assoc, readDeclarations_of_read_ok hstart hfirst,
        readDeclarations_of_read_ok hname hread, hown other hother]
  | brace =>
      exact .of_mark (fun rest => .ok ([], rest)) (List.nil_append _).symm readDeclarations_brace

/-- Where a lexeme of a block ends the text may be exchanged for `Block.read`. -/
theorem Ends.exchangeable (ht : Absent t) (h : Ends t l after) : Exchangeable read l t after := by
  cases h with
  | token htoken =>
      refine (htoken.exchangeable rfl).of_imp fun s _ hs => ?_
      simp only [read, readSelector, hs]
  | @brace tokens _ hselector hne hdepth =>
      obtain ⟨front, hfront, htokens⟩ := exists_front_of_brace ht hselector
      exact .of_mark (finish tokens) hfront fun x => read_of_brace (htokens x) hne hdepth
  | @inside tokens inside _ _ hselector hne hdepth hinside =>
      obtain ⟨front, hfront, htokens⟩ := exists_front_of_brace ht hselector
      rw [List.append_cons] at hfront
      rw [hfront]
      refine (hinside.exchangeable (absent_skip inside)).behind_gap.behind _ fun s hs => ?_
      obtain ⟨-, hdeclarations⟩ := Prod.mk.inj hs
      rw [← List.append_cons, ← List.append_cons, read_of_brace (htokens s) hne hdepth,
        read_of_brace (htokens inside) hne hdepth, finish, hdeclarations, finish]

/-- Blocks are read alike by `readAll` if the first one is by `read`. -/
theorem readAll_of_read_eq {s : Text} (h : read s = read t) : readAll s = readAll t := by
  cases hread : read t with
  | error ending => rw [readAll_of_error hread, readAll_of_error (h.trans hread)]
  | ok pair => rw [readAll_of_ok hread, readAll_of_ok (h.trans hread)]

/-- Where a lexeme of blocks ends the text may be exchanged for `Block.readAll`. -/
theorem EndsInAll.exchangeable (ht : Absent t) (h : EndsInAll t l after) :
    Exchangeable readAll l t after := by
  induction h with
  | first hends => exact (hends.exchangeable ht).of_imp fun s _ hs => readAll_of_read_eq hs
  | later hread _ ih =>
      obtain ⟨item, between, rfl, rfl, -, hitem⟩ := exists_item_of_read ht hread
      rw [List.append_cons] at hread ht ⊢
      refine (ih (absent_skip between)).behind_gap.behind _ fun s hs => ?_
      obtain ⟨-, hrest⟩ := Prod.mk.inj hs
      rw [← List.append_cons, readAll_of_ok (hitem s), readAll_of_ok hread, hrest]

end Block

/-! ## Documents -/

namespace Reading

/-- Where a lexeme of a document ends the text may be exchanged for `ofText`. -/
theorem Ends.exchangeable {l : Lexeme} {t after : Text} (h : Ends t l after) :
    Exchangeable ofText l t after := by
  cases h with
  | directive hends =>
      refine hends.exchangeable.behind_gap.of_imp fun s _ hs => ?_
      obtain ⟨-, hdirectives⟩ := Prod.mk.inj hs
      simp only [ofText, hdirectives]
  | block hread hends =>
      obtain ⟨front, middle, rfl, hstop, -, hfront⟩ := Directive.exists_front_of_readAll hread
      obtain ⟨rfl, hhead⟩ := Directive.eq_of_readAll_nil hstop
      -- No directive follows the front, whatever is exchanged, so blocks are read there.
      have hblocks : Exchangeable (fun s => (s.head?, Block.readAll s)) l (skip middle) after :=
        (hends.exchangeable (absent_skip middle)).of_imp fun s hs hread =>
          Prod.ext hs hread
      refine hblocks.behind_gap.behind _ fun s hs => ?_
      obtain ⟨-, hbehind⟩ := Prod.mk.inj hs
      obtain ⟨hstart, hall⟩ := Prod.mk.inj hbehind
      rw [ofText_of_directives (hfront s) .complete, ofText_of_directives (hfront middle) .complete,
        ofText_of_head_ne hhead, ofText_of_head_ne (hstart ▸ hhead), hall]

/-- A document is read alike by `ofText` when the text `after` a lexeme of it is exchanged for
`other`. -/
theorem ofText_exchange {front after other : Text} {l : Lexeme} (h : Ends (front ++ after) l after)
    (hother : Exchange l after other) : ofText (front ++ other) = ofText (front ++ after) := by
  obtain ⟨front', -, hfront, hread⟩ := h.exchangeable
  obtain rfl := List.append_cancel_right hfront
  exact hread other hother

end Reading

end SassNesting
