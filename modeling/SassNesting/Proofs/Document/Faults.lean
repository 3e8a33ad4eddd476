import SassNesting.Conversion
import SassNesting.Proofs.Document.Fronts
import SassNesting.Proofs.Text.Position

/-! # Where documents are at fault

A fault is what stops a reader, so in front of it stands a document without a fault, the items read
so far, and the start of the item at fault, and at the place of it stands something that does not
fit. `Expectation.Missing` says for each expectation what that is. From this it follows that the
error that is reported for a document has its place at a character, and the line of that place
(`exists_missing_of_parse_error`). -/

namespace SassNesting

open Gap

/-- What is expected is missing in front of `rest`: what stands there instead, where `own` is the
part of the item at fault that comes before it. -/
def Expectation.Missing (own rest : Text) : Expectation → Prop
  | directiveName => own = ['@'] ∧ ∀ c, rest.head? = some c → Text.isBlank c = true ∨ c = ';'
  | directiveEnd => rest = []
  | shorterSelector => rest.head? = some '{' ∧
      ∃ tokens, Sequence (TokenWritten Block.isSelectorChar) rest tokens own ∧
        ∃ piece ∈ (Selector.ofTokens (tokens.map (·.1))).splitOn ',',
          maxSelectorDepth < (Text.words piece).length
  | colon => Absent rest ∧ rest.head? ≠ some ':'
  | declarationEnd => rest = []
  | blockEnd => ∀ c, rest.head? = some c → c = ':'

/-! ## Directives -/

namespace Directive

/-- A directive is at fault where its name is missing, or at the end of the text, where its
semicolon is: `Missing` holds in front of `fault.rest`. -/
theorem exists_missing_of_read {t : Text} {fault : Fault} (h : read t = .error fault) :
    ∃ own, '@' :: t = own ++ fault.rest ∧ fault.expected.Missing own fault.rest := by
  simp only [read] at h
  split at h
  · rename_i hname
    cases h
    refine ⟨['@'], rfl, rfl, fun c hc => ?_⟩
    obtain ⟨rest, rfl⟩ := List.head?_eq_some_iff.1 hc
    by_cases hblank : Text.isBlank c = true
    · exact Or.inl hblank
    · by_cases hsemicolon : c = ';'
      · exact Or.inr hsemicolon
      · simp [isNameChar, hblank, hsemicolon] at hname
  · split at h
    · simp at h
    · rename_i hend
      cases h
      -- The value runs to the next semicolon, so it runs to the end of the text.
      have hnil : (skip (t.dropWhile isNameChar)).dropWhile isValueChar = [] := by
        cases hrest : (skip (t.dropWhile isNameChar)).dropWhile isValueChar with
        | nil => rfl
        | cons c rest =>
            have hhead := List.head?_dropWhile_not isValueChar (skip (t.dropWhile isNameChar))
            rw [hrest] at hhead
            have hc : c = ';' := by simpa [isValueChar] using hhead
            exact absurd (hc ▸ hrest) (hend rest)
      exact ⟨'@' :: t, by rw [hnil, List.append_nil], hnil⟩

/-- Where `readAll t` has no directive and yet a fault, `t` starts with an at sign, and `read` meets
the fault behind it. -/
theorem exists_at_of_readAll {t : Text} {fault : Fault} (h : readAll t = ([], .error fault)) :
    ∃ rest, t = '@' :: rest ∧ read rest = .error fault := by
  by_cases hhead : t.head? = some '@'
  · obtain ⟨rest, rfl⟩ := List.head?_eq_some_iff.1 hhead
    refine ⟨rest, rfl, ?_⟩
    cases hread : read rest with
    | error other =>
        rw [readAll_of_error hread] at h
        cases h
        rfl
    | ok pair =>
        rw [readAll_of_ok hread] at h
        simp at h
  · rw [readAll_of_head_ne hhead] at h
    simp at h

end Directive

/-! ## Declarations -/

namespace Declaration

/-- A declaration is at fault where its colon is missing, or at the end of the text, whatever stands
in front of it as `own`. -/
theorem exists_missing_of_read {t : Text} {fault : Fault} (h : read t = .error fault) :
    ∃ before, t = before ++ fault.rest ∧ ∀ own, fault.expected.Missing own fault.rest := by
  obtain ⟨gap, -, hafter⟩ := exists_written_skip (t.dropWhile isNameChar)
  simp only [read] at h
  split at h
  · rename_i valueOn hcolon
    split at h
    · simp at h
    · simp at h
    · rename_i hsemicolon hbrace
      cases h
      -- No gap and no character of a value follows, and neither mark: nothing follows.
      have hnil : (readValue (skip valueOn)).2 = [] := by
        obtain ⟨_, -, -, hrest, hstop⟩ :=
          exists_sequence_readTokens isValueChar (absent_skip valueOn)
        change (readValue (skip valueOn)).2.takeWhile isValueChar = [] at hstop
        change Absent (readValue (skip valueOn)).2 at hrest
        cases hvalue : (readValue (skip valueOn)).2 with
        | nil => rfl
        | cons c rest =>
            rw [hvalue] at hstop hrest hsemicolon hbrace
            have hblank := hrest.not_blank c rfl
            have hmark : c = ';' ∨ c = '}' := by
              by_contra hne
              rw [not_or] at hne
              simp [isValueChar, hblank, hne] at hstop
            rcases hmark with rfl | rfl
            · exact absurd rfl (hsemicolon rest)
            · exact absurd rfl (hbrace rest)
      exact ⟨t, by rw [hnil, List.append_nil], fun own => hnil⟩
  · rename_i hcolon
    cases h
    refine ⟨t.takeWhile isNameChar ++ gap, ?_, fun own => ⟨absent_skip _, fun hhead => ?_⟩⟩
    · rw [List.append_assoc, ← hafter, List.takeWhile_append_dropWhile]
    · obtain ⟨rest, hrest⟩ := List.head?_eq_some_iff.1 hhead
      exact hcolon rest hrest

end Declaration

/-! ## Blocks -/

namespace Block

/-- Inside a block `readDeclarations` is at fault in a declaration, or where a name or the closing
brace is missing. -/
theorem exists_missing_of_readDeclarations {t : Text} {fault : Fault} (ht : Absent t)
    (h : readDeclarations t = .error fault) :
    ∃ before, t = before ++ fault.rest ∧ ∀ own, fault.expected.Missing own fault.rest := by
  fun_induction readDeclarations t with
  | case1 => simp at h
  | case2 t hname hbrace =>
      cases h
      refine ⟨[], rfl, fun own c hc => ?_⟩
      obtain ⟨rest, rfl⟩ := List.head?_eq_some_iff.1 hc
      have hblank := ht.not_blank c rfl
      by_contra hcolon
      have hclose : c ≠ '}' := fun heq => hbrace rest (by rw [heq])
      simp [Declaration.isNameChar, hblank, hcolon, hclose] at hname
  | case3 t hname fault' hread =>
      cases h
      exact Declaration.exists_missing_of_read hread
  | case4 t hname d rest hread fault' hrec ih =>
      cases h
      obtain ⟨text, -, rfl, hrest⟩ := Declaration.exists_written_of_read ht hname hread
      obtain ⟨before, rfl, hmissing⟩ := ih hrest hrec
      exact ⟨text ++ before, by rw [List.append_assoc], hmissing⟩
  | case5 => simp at h

/-- A block is at fault at its opening brace, if its selector exceeds `maxSelectorDepth`, or inside.
-/
theorem exists_missing_of_read {t : Text} {fault : Fault} (ht : Absent t)
    (h : read t = .error (.fault fault)) :
    ∃ own, t = own ++ fault.rest ∧ fault.expected.Missing own fault.rest := by
  rcases read_cases t with ⟨ending, hread, hfault⟩ | ⟨tokens, inside, hselector, -, hread⟩
  · rw [h] at hread
    cases hread
    exact absurd rfl (hfault fault)
  obtain ⟨selector, hwritten, htext, -⟩ := exists_sequence_readTokens isSelectorChar ht
  have htokens : (readTokens isSelectorChar t).1.map (·.1) = tokens := congrArg Prod.fst hselector
  have hbrace : (readTokens isSelectorChar t).2 = '{' :: inside := congrArg Prod.snd hselector
  rw [hbrace] at hwritten htext
  rcases hread with ⟨hdepth, hread⟩ | ⟨-, hread⟩
  · rw [h] at hread
    cases hread
    have hlimit := mt Selector.depth_le_iff.2 (Nat.not_le.2 hdepth)
    push Not at hlimit
    exact ⟨selector, htext, rfl, _, hwritten, by rw [htokens]; exact hlimit⟩
  · have hds := readDeclarations_of_finish_error (hread.symm.trans h)
    obtain ⟨gap, -, hgap⟩ := exists_written_skip inside
    obtain ⟨before, hskip, hmissing⟩ :=
      exists_missing_of_readDeclarations (absent_skip inside) hds
    rw [hskip] at hgap
    refine ⟨selector ++ '{' :: (gap ++ before), ?_, hmissing _⟩
    rw [htext, hgap]
    simp

end Block

/-! ## Documents -/

/-- Where `ofText t` ends at a fault, a document `front` with the same items and no fault stands in
front of the item at fault, and of that item `own` is what comes before the fault. -/
theorem Reading.exists_missing {t : Text} {fault : Fault} (h : (ofText t).ending = .fault fault) :
    ∃ front own, t = front ++ own ++ fault.rest ∧ fault.expected.Missing own fault.rest ∧
      ofText front = ⟨(ofText t).directives, (ofText t).blocks, .complete⟩ := by
  obtain ⟨front, tail, ht, habsent, hstop, hfront⟩ := exists_cut t
  -- The item at fault is cut off, whether it is a directive or a block.
  have hitem : ∃ own, tail = own ++ fault.rest ∧ fault.expected.Missing own fault.rest := by
    rcases hstop with ⟨fault', hfault, hread⟩ | hread
    · rw [h] at hfault
      cases hfault
      obtain ⟨rest, hat, hrest⟩ := Directive.exists_at_of_readAll hread
      obtain ⟨own, hown, hmissing⟩ := Directive.exists_missing_of_read hrest
      exact ⟨own, hat.trans hown, hmissing⟩
    · rw [h] at hread
      exact Block.exists_missing_of_read habsent hread
  obtain ⟨own, rfl, hmissing⟩ := hitem
  exact ⟨front, own, by rw [ht, List.append_assoc], hmissing, hfront⟩

/-- An error of `parse t` is that of a fault at which `Reading.ofText t` ends. -/
theorem exists_fault_of_parse {t : Text} {e : SyntaxError} (h : parse t = .error e) :
    ∃ fault, (Reading.ofText t).ending = .fault fault ∧ e = fault.toError t := by
  simp only [parse] at h
  split at h
  · rename_i fault hending
    cases h
    exact ⟨fault, hending, rfl⟩
  · simp at h

/-- **Errors are told where something is missing.** The place `e.pos` of the error that is reported
for a document is that of a character of the document or its end, behind a document `front` without
a fault and the start `own` of an item, where something else stands than is expected
(`Expectation.Missing`); and its line is that of the place. -/
theorem exists_missing_of_parse_error {t : Text} {e : SyntaxError} (h : parse t = .error e) :
    ∃ front own rest, t = front ++ own ++ rest ∧
      (Reading.ofText front).ending = .complete ∧ e.expected.Missing own rest ∧
      e.pos = Text.byteSize (front ++ own) ∧ e.pos ≤ Text.byteSize t ∧
      ∀ o, ∃ d, buildSheet o t = .error d ∧ d.expected = e.expected.text ∧ d.pos = e.pos ∧
        d.line = 1 + (front ++ own).count '\n' := by
  obtain ⟨fault, hending, rfl⟩ := exists_fault_of_parse h
  obtain ⟨front, own, ht, hmissing, hfront⟩ := Reading.exists_missing hending
  have hpos : (fault.toError t).pos = Text.byteSize (front ++ own) := by
    rw [Fault.toError, ht, Text.offset_append]
  refine ⟨front, own, fault.rest, ht, by rw [hfront], hmissing, hpos, ?_, fun o => ?_⟩
  · rw [hpos, ht, Text.byteSize_append (front ++ own)]
    exact Nat.le_add_right _ _
  · refine ⟨(fault.toError t).diagnose o.sourceName t, by rw [buildSheet, h], rfl, rfl, ?_⟩
    rw [SyntaxError.diagnose, Diagnostic.locate, hpos, ht]
    exact Text.lineAt_byteSize (front ++ own) fault.rest

/-- A missing colon on the second line, behind a block and a character of two bytes. -/
theorem exists_missing_of_parse_error_colon :
    parse "é\x7bp:q\x7d\na\x7bb c".toList = .error ⟨.colon, 12⟩ ∧
      ∃ front own rest, "é\x7bp:q\x7d\na\x7bb c".toList = front ++ own ++ rest ∧
        (Reading.ofText front).ending = .complete ∧ Expectation.colon.Missing own rest ∧
        12 = Text.byteSize (front ++ own) ∧ 12 ≤ Text.byteSize "é\x7bp:q\x7d\na\x7bb c".toList ∧
        ∀ o, ∃ d, buildSheet o "é\x7bp:q\x7d\na\x7bb c".toList = .error d ∧
          d.expected = Expectation.colon.text ∧ d.pos = 12 ∧
          d.line = 1 + (front ++ own).count '\n' := by
  have h : parse "é\x7bp:q\x7d\na\x7bb c".toList = .error ⟨.colon, 12⟩ := by
    decide +kernel
  exact ⟨h, exists_missing_of_parse_error h⟩

end SassNesting
