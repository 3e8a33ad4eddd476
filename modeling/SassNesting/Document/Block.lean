import SassNesting.Document.Basic
import SassNesting.Selector
import SassNesting.Text.Gap

/-! # Reading blocks

A block is a selector and, in braces, its declarations. The selector is made of tokens with gaps
between them. A declaration is a name, a colon and a value, and ends with a semicolon unless the
brace that ends the block follows. A gap may stand after each token, name and mark, and the gaps
inside a value leave their blanks in it. -/

namespace SassNesting

/-! ## Declarations -/

namespace Declaration

/-- A character of the name of a declaration. -/
def isNameChar (c : Char) : Bool := !Text.isBlank c && c ≠ ':' && c ≠ '}'

/-- A character of a token of a value. -/
def isValueChar (c : Char) : Bool := !Text.isBlank c && c ≠ ';' && c ≠ '}'

/-- Reads a value: its tokens, each with the blanks of the gap after it, and the text that follows.
-/
def readValue (t : Text) : Text × Text :=
  let (tokens, rest) := Gap.readTokens isValueChar t
  (Gap.joinTokens tokens, rest)

/-- What follows a value is never longer than the text it is read from. -/
theorem length_readValue_le (t : Text) : (readValue t).2.length ≤ t.length :=
  Gap.length_readTokens_le isValueChar t

/-- Reads a declaration, with the semicolon after it if there is one, from a text that starts with
its name. -/
def read (t : Text) : Except Fault (Declaration × Text) :=
  match Gap.skip (t.dropWhile isNameChar) with
  | ':' :: valueOn =>
    let value := readValue (Gap.skip valueOn)
    let declaration : Declaration := ⟨t.takeWhile isNameChar, Text.trimEnd value.1⟩
    match value.2 with
    | ';' :: rest => .ok (declaration, Gap.skip rest)
    | '}' :: _ => .ok (declaration, value.2)
    | _ => .error ⟨.declarationEnd, value.2⟩
  | rest => .error ⟨.colon, rest⟩

/-- What follows a declaration is shorter than the text it is read from. -/
theorem length_of_read {t rest : Text} {d : Declaration} (h : read t = .ok (d, rest)) :
    rest.length < t.length := by
  have hname := Text.length_dropWhile_le isNameChar t
  have hgap := Gap.length_skip_le (t.dropWhile isNameChar)
  unfold read at h
  split at h
  · rename_i valueOn hvalue
    have hskip := Gap.length_skip_le valueOn
    have hread := length_readValue_le (Gap.skip valueOn)
    rw [hvalue, List.length_cons] at hgap
    simp only at h
    split at h
    · rename_i after hafter
      have := Gap.length_skip_le after
      simp only [hafter, List.length_cons, Except.ok.injEq, Prod.mk.injEq] at h hread
      obtain ⟨-, rfl⟩ := h
      omega
    · simp only [Except.ok.injEq, Prod.mk.injEq] at h
      obtain ⟨-, rfl⟩ := h
      omega
    · simp at h
  · simp at h

end Declaration

/-! ## Blocks -/

namespace Block

/-- Reads declarations up to the brace that ends their block, the brace, and the gap after it. -/
def readDeclarations (t : Text) : Except Fault (List Declaration × Text) :=
  if t.takeWhile Declaration.isNameChar = [] then
    match t with
    | '}' :: rest => .ok ([], Gap.skip rest)
    | _ => .error ⟨.blockEnd, t⟩
  else
    match _h : Declaration.read t with
    | .error fault => .error fault
    | .ok (d, rest) =>
      match readDeclarations rest with
      | .error fault => .error fault
      | .ok (ds, rest) => .ok (d :: ds, rest)
termination_by t.length
decreasing_by exact Declaration.length_of_read _h

/-- What follows the declarations of a block is shorter than the text they are read from. -/
theorem length_of_readDeclarations {t rest : Text} {ds : List Declaration}
    (h : readDeclarations t = .ok (ds, rest)) : rest.length < t.length := by
  fun_induction readDeclarations t generalizing ds rest with
  | case1 after hname =>
    have := Gap.length_skip_le after
    simp only [Except.ok.injEq, Prod.mk.injEq] at h
    obtain ⟨-, rfl⟩ := h
    simp only [List.length_cons]
    omega
  | case2 => simp at h
  | case3 => simp at h
  | case4 => simp at h
  | case5 t hname d after hread ds' rest' hrec ih =>
    have hstep := Declaration.length_of_read hread
    have := ih hrec
    simp only [Except.ok.injEq, Prod.mk.injEq] at h
    obtain ⟨-, rfl⟩ := h
    omega

/-- Where there is no name of a declaration, the brace that ends the block is read. -/
theorem readDeclarations_brace (rest : Text) :
    readDeclarations ('}' :: rest) = .ok ([], Gap.skip rest) := by
  rw [readDeclarations]
  simp [Declaration.isNameChar]

/-- A declaration comes before the declarations that follow it. -/
theorem readDeclarations_of_ok {t rest after : Text} {d : Declaration} {ds : List Declaration}
    (hname : t.takeWhile Declaration.isNameChar ≠ []) (h : Declaration.read t = .ok (d, rest))
    (hrest : readDeclarations rest = .ok (ds, after)) :
    readDeclarations t = .ok (d :: ds, after) := by
  unfold readDeclarations
  rw [if_neg hname]
  split <;> simp_all

/-- A character of a token of a selector. -/
def isSelectorChar (c : Char) : Bool := !Text.isBlank c && c ≠ '{'

/-- Reads the tokens of a selector, each with the gap after it: the tokens, and the text that
follows. -/
def readSelector (t : Text) : List Text × Text :=
  let (tokens, rest) := Gap.readTokens isSelectorChar t
  (tokens.map (·.1), rest)

/-- What follows a selector is never longer than the text it is read from. -/
theorem length_readSelector_le (t : Text) : (readSelector t).2.length ≤ t.length :=
  Gap.length_readTokens_le isSelectorChar t

/-- Reads a block and the gap after it, or tells how the reading of blocks ends. -/
def read (t : Text) : Except Ending (Block × Text) :=
  let selector := readSelector t
  match selector.1, selector.2 with
  | [], [] => .error .complete
  | [], rest => .error (.trailing rest)
  | tokens, '{' :: inside =>
    if maxSelectorDepth < Selector.depth (Selector.ofTokens tokens) then
      .error (.fault ⟨.shorterSelector, '{' :: inside⟩)
    else
      match readDeclarations (Gap.skip inside) with
      | .error fault => .error (.fault fault)
      | .ok (ds, rest) => .ok (⟨Selector.ofTokens tokens, ds⟩, rest)
  | tokens, _ => .error (.openSelector tokens)

/-- What follows a block is shorter than the text it is read from. -/
theorem length_of_read {t rest : Text} {b : Block} (h : read t = .ok (b, rest)) :
    rest.length < t.length := by
  have hselector := length_readSelector_le t
  simp only [read] at h
  split at h
  · simp at h
  · simp at h
  · rename_i inside hinside _
    split at h
    · simp at h
    · split at h
      · simp at h
      · rename_i hds
        have hdeclarations := length_of_readDeclarations hds
        have hgap := Gap.length_skip_le inside
        rw [hinside, List.length_cons] at hselector
        simp only [Except.ok.injEq, Prod.mk.injEq] at h
        obtain ⟨-, rfl⟩ := h
        omega
  · simp at h

/-- Reads blocks as long as there are any: the blocks read, and how their reading ends. -/
def readAll (t : Text) : List Block × Ending :=
  match _h : read t with
  | .error ending => ([], ending)
  | .ok (b, rest) =>
    let (bs, ending) := readAll rest
    (b :: bs, ending)
termination_by t.length
decreasing_by exact length_of_read _h

/-- Where there is no block, the reading of blocks ends. -/
theorem readAll_of_error {t : Text} {ending : Ending} (h : read t = .error ending) :
    readAll t = ([], ending) := by
  rw [readAll]
  split <;> simp_all

/-- A block comes before the blocks that follow it. -/
theorem readAll_of_ok {t rest : Text} {b : Block} (h : read t = .ok (b, rest)) :
    readAll t = (b :: (readAll rest).1, (readAll rest).2) := by
  rw [readAll]
  split <;> simp_all

end Block

end SassNesting
