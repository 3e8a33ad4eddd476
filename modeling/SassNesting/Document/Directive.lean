import SassNesting.Document.Basic
import SassNesting.Text.Gap

/-! # Reading directives

A directive is an at sign, a name, a gap, a value that runs to the next semicolon, and the
semicolon. The value is kept as it is, but the value of an import that names a stylesheet file is
reduced to the bare path: `url("a.css")`, `"a.css"` and `a.css` all become `a`. -/

namespace SassNesting

namespace Directive

/-! ## Import targets -/

/-- A character of a bare path: no blank, no parenthesis and no quote. -/
def isPathChar (c : Char) : Bool :=
  !Text.isBlank c && c ≠ '(' && c ≠ ')' && c ≠ '"'

/-- What may come before the path in an import: `url(` or nothing, then a quote or nothing. -/
def pathOpenings : List Text := ["url(\"".toList, "url(".toList, "\"".toList, []]

/-- What may come after the ending of the path: a quote or nothing, then a parenthesis or nothing.
-/
def pathClosings : List Text := ["\")".toList, "\"".toList, ")".toList, []]

/-- The ending of the name of a stylesheet file. -/
def pathEnding : Text := ".css".toList

/-- The text without the first of the openings that it starts with. -/
def dropOpening (value : Text) : Text :=
  (pathOpenings.findSome? fun opening => opening.isPrefixOf? value).getD value

/-- The bare path that the value of an import names, if it names a stylesheet file. The characters
of the path end where a closing begins, and a closing has no character of a path, so the path with
its ending is the longest run of path characters. -/
def importTarget? (value : Text) : Option Text :=
  let named := dropOpening value
  if named.dropWhile isPathChar ∈ pathClosings then
    (pathEnding.isSuffixOf? (named.takeWhile isPathChar)).filter (· ≠ [])
  else none

/-- The value of a directive as it is kept. -/
def keptValue (name value : Text) : Text :=
  if name = "import".toList then (importTarget? value).getD value else value

/-! ## Reading -/

/-- A character of the name of a directive. -/
def isNameChar (c : Char) : Bool := !Text.isBlank c && c ≠ ';'

/-- A character of the value of a directive. -/
def isValueChar (c : Char) : Bool := c ≠ ';'

/-- Reads a directive, and the gap after it, from the text that follows its at sign. -/
def read (t : Text) : Except Fault (Directive × Text) :=
  let name := t.takeWhile isNameChar
  if name = [] then .error ⟨.directiveName, t⟩
  else
    let valueOn := Gap.skip (t.dropWhile isNameChar)
    match valueOn.dropWhile isValueChar with
    | ';' :: rest => .ok (⟨name, keptValue name (valueOn.takeWhile isValueChar)⟩, Gap.skip rest)
    | rest => .error ⟨.directiveEnd, rest⟩

/-- What follows a directive is shorter than the text it is read from. -/
theorem length_of_read {t rest : Text} {d : Directive} (h : read t = .ok (d, rest)) :
    rest.length < t.length := by
  have hname := Text.length_dropWhile_le isNameChar t
  have hgap := Gap.length_skip_le (t.dropWhile isNameChar)
  have hvalue := Text.length_dropWhile_le isValueChar (Gap.skip (t.dropWhile isNameChar))
  simp only [read] at h
  split at h
  · simp at h
  · split at h
    · rename_i after hafter
      have := Gap.length_skip_le after
      simp only [hafter, List.length_cons, Except.ok.injEq, Prod.mk.injEq] at h hvalue
      obtain ⟨-, rfl⟩ := h
      omega
    · simp at h

/-- Reads directives as long as an at sign follows: the directives read, and either the text after
them or the fault that ended the reading. -/
def readAll : Text → List Directive × Except Fault Text
  | '@' :: t =>
    match _h : read t with
    | .error fault => ([], .error fault)
    | .ok (d, rest) =>
      let (ds, result) := readAll rest
      (d :: ds, result)
  | t => ([], .ok t)
termination_by t => t.length
decreasing_by
  have := length_of_read _h
  simp only [List.length_cons]
  omega

/-- A fault in the directive after an at sign ends the reading of directives. -/
theorem readAll_of_error {t : Text} {fault : Fault} (h : read t = .error fault) :
    readAll ('@' :: t) = ([], .error fault) := by
  rw [readAll]
  split
  · simp_all
  · simp_all

/-- A directive after an at sign comes before the directives that follow it. -/
theorem readAll_of_ok {t rest : Text} {d : Directive} (h : read t = .ok (d, rest)) :
    readAll ('@' :: t) = (d :: (readAll rest).1, (readAll rest).2) := by
  rw [readAll]
  split
  · simp_all
  · simp_all

/-- Where no at sign follows there is no directive. -/
theorem readAll_of_head_ne {t : Text} (h : t.head? ≠ some '@') : readAll t = ([], .ok t) := by
  rw [readAll]
  rintro rest rfl
  simp at h

end Directive

end SassNesting
