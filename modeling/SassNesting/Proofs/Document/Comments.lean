import SassNesting.Proofs.Document.Exchange

/-! # Comments between lexemes

A comment leaves nothing in what is read: in the gap behind a lexeme it may be put or left out, and
a document makes up the same stylesheet (`parse_insert_comment`). There must be a gap, though, or a
mark must come before it. A run of characters goes on as long as it can, so directly behind a token
or a name a comment becomes a part of it (`parse_comment_behind_run`). -/

namespace SassNesting

open Gap

/-- A comment with the text `c` in a gap leaves what is behind a lexeme as it is, unless the lexeme
is a run and the gap begins with the comment. -/
theorem Gap.exchange_comment {l : Lexeme} {gap blanks c : Text} (hgap : Closed gap blanks)
    (hrun : l.isRun = true → gap ≠ []) (hc : Unclosed c) (v : Text) :
    Exchange l (gap ++ v) (gap ++ '/' :: '*' :: (c ++ '*' :: '/' :: v)) where
  read_eq := by
    have hcomment : read ('/' :: '*' :: (c ++ '*' :: '/' :: v)) = read v := by
      rw [read, skipComment_closed hc]
    rw [read_append_of_closed hgap, read_append_of_closed hgap, hcomment]
  head_eq hl := head?_append_eq (hrun hl) _ _
  not_star := hgap.head_ne_star (by simp)

/-- Texts with the same `Reading.ofText` make up the same stylesheet, if any. -/
theorem parse_of_ofText_eq {s t : Text} {body : Body} (h : parse t = .ok body)
    (heq : Reading.ofText s = Reading.ofText t) : parse s = .ok body := by
  rw [parse_eq_ok_iff_ofText] at h ⊢
  rw [heq]
  exact h

/-- **Comments change nothing in a gap.** A comment `/* c */` that is put into the gap behind a
lexeme `l` of a document, or directly behind a mark, changes nothing in the stylesheet that the
document makes up, whatever text `c` the comment has, if only nothing in it closes the comment
before its end. -/
theorem parse_insert_comment {u gap blanks v c : Text} {l : Lexeme} {body : Body}
    (h : parse (u ++ (gap ++ v)) = .ok body) (hends : Reading.Ends (u ++ (gap ++ v)) l (gap ++ v))
    (hgap : Closed gap blanks) (hrun : l.isRun = true → gap ≠ []) (hc : Unclosed c) :
    parse (u ++ (gap ++ '/' :: '*' :: (c ++ '*' :: '/' :: v))) = .ok body :=
  parse_of_ofText_eq h (Reading.ofText_exchange hends (exchange_comment hgap hrun hc v))

/-- A comment behind the blank after a value, with marks in its text. -/
theorem parse_insert_comment_value :
    parse ("a\x7bb:c".toList ++ (" ".toList ++ '/' :: '*' ::
      ("\x7d;".toList ++ '*' :: '/' :: "\x7d".toList))) =
        .ok [.rule "a".toList [.declaration "b".toList "c".toList]] := by
  have hblock : Directive.readAll (skip "a\x7bb:c \x7d".toList) =
      ([], .ok "a\x7bb:c \x7d".toList) := by decide +kernel
  have hselector : Block.readSelector "a\x7bb:c \x7d".toList =
      (["a".toList], '{' :: "b:c \x7d".toList) := by decide +kernel
  have hcolon : skip ((skip "b:c \x7d".toList).dropWhile Declaration.isNameChar) =
      ':' :: "c \x7d".toList := by decide +kernel
  have hends : Reading.Ends ("a\x7bb:c".toList ++ (" ".toList ++ "\x7d".toList)) .valueToken
      (" ".toList ++ "\x7d".toList) :=
    .block hblock (.first (.inside hselector (by decide) (by decide +kernel)
      (.first (by decide +kernel) (.value hcolon
        (.first (by decide +kernel) (by decide +kernel))))))
  exact parse_insert_comment (by decide +kernel) hends (.blank (by decide) .nil) (by decide)
    (by unfold Unclosed; decide +kernel)

/-- Directly behind a token or a name a comment is taken for a part of it: for `a/**/`, `b/**/` and
`c/**/` as the selector, the property and the value of the same document, another stylesheet is
read. -/
theorem parse_comment_behind_run :
    parse "a\x7bb:c\x7d".toList = .ok [.rule "a".toList [.declaration "b".toList "c".toList]] ∧
      (Reading.Ends "a\x7bb:c\x7d".toList .selectorToken "\x7bb:c\x7d".toList ∧
        parse "a/**/\x7bb:c\x7d".toList =
          .ok [.rule "a/**/".toList [.declaration "b".toList "c".toList]]) ∧
      (Reading.Ends "a\x7bb:c\x7d".toList .declarationName ":c\x7d".toList ∧
        parse "a\x7bb/**/:c\x7d".toList =
          .ok [.rule "a".toList [.declaration "b/**/".toList "c".toList]]) ∧
      (Reading.Ends "a\x7bb:c\x7d".toList .valueToken "\x7d".toList ∧
        parse "a\x7bb:c/**/\x7d".toList =
          .ok [.rule "a".toList [.declaration "b".toList "c/**/".toList]]) := by
  have hblock : Directive.readAll (skip "a\x7bb:c\x7d".toList) =
      ([], .ok "a\x7bb:c\x7d".toList) := by decide +kernel
  have hselector : Block.readSelector "a\x7bb:c\x7d".toList =
      (["a".toList], '{' :: "b:c\x7d".toList) := by decide +kernel
  have hcolon : skip ((skip "b:c\x7d".toList).dropWhile Declaration.isNameChar) =
      ':' :: "c\x7d".toList := by decide +kernel
  have hinside : ∀ {l : Lexeme} {after : Text}, Declaration.Ends (skip "b:c\x7d".toList) l after →
      Reading.Ends "a\x7bb:c\x7d".toList l after := fun h =>
    .block hblock (.first (.inside hselector (by decide) (by decide +kernel)
      (.first (by decide +kernel) h)))
  refine ⟨by decide +kernel, ⟨?_, by decide +kernel⟩, ⟨?_, by decide +kernel⟩,
    ⟨?_, by decide +kernel⟩⟩
  · exact .block hblock (.first (.token (.first (by decide +kernel) (by decide +kernel))))
  · exact hinside (.name (by decide +kernel))
  · exact hinside (.value hcolon (.first (by decide +kernel) (by decide +kernel)))

end SassNesting
