import SassNesting.Document.Reading

/-! # The grammar of documents

What a document is can be said without reading one. Each relation of this file tells how an item
is written in front of a given text: `Directive.Written d text rest` says that `text` is a way of
writing the directive `d`, with the gap after it, where `rest` follows. The text that follows
counts, because tokens and gaps end where nothing can prolong them, and because a comment may be
left open only at the end of a document. `Reading.Written` puts the items of a document
together. -/

namespace SassNesting

/-! ## Gaps -/

namespace Gap

/-- No closing mark of a comment stands in the text `t`. -/
def Unclosed (t : Text) : Prop := ¬ ['*', '/'] <:+: t

/-- No gap starts the text `t`: it begins neither with a blank nor with the opening mark of a
comment. -/
structure Absent (t : Text) : Prop where
  /-- The first character is not blank. -/
  not_blank : ∀ c, t.head? = some c → Text.isBlank c = false
  /-- The text does not start with an opening mark. -/
  not_comment : ¬ ['/', '*'] <+: t

/-- Closed gaps: `Closed gap blanks` are blanks and closed comments in any order, with the blanks
among them. -/
inductive Closed : Text → Text → Prop where
  /-- The empty gap. -/
  | nil : Closed [] []
  /-- A blank, and the rest of the gap. -/
  | blank {c : Char} {gap blanks : Text} :
      Text.isBlank c = true → Closed gap blanks → Closed (c :: gap) (c :: blanks)
  /-- A comment, which ends at its first closing mark, and the rest of the gap. -/
  | comment {inside gap blanks : Text} :
      Unclosed inside → Closed gap blanks →
        Closed ('/' :: '*' :: (inside ++ '*' :: '/' :: gap)) blanks

/-- A gap in front of a text: `Written gap blanks rest` is as `Closed gap blanks`, but at the end of
a document its last comment may be left open. -/
inductive Written : Text → Text → Text → Prop where
  /-- All comments of the gap are closed. -/
  | closed {gap blanks rest : Text} : Closed gap blanks → Written gap blanks rest
  /-- The last comment of the gap runs to the end of the document. -/
  | unclosed {gap blanks inside : Text} :
      Closed gap blanks → Unclosed inside → Written (gap ++ '/' :: '*' :: inside) blanks []

end Gap

/-! ## Runs, tokens and sequences -/

/-- A `run` of characters with `isChar`, of at least one character, which the text `after` it does
not prolong. -/
structure IsRun (isChar : Char → Bool) (run after : Text) : Prop where
  /-- There is a character. -/
  ne_nil : run ≠ []
  /-- All characters are of the kind. -/
  all : ∀ c ∈ run, isChar c = true
  /-- The first character after the run is not of the kind. -/
  ends : ∀ c, after.head? = some c → isChar c = false

/-- A token, with the blanks of the gap after it, in front of a text. -/
inductive TokenWritten (isChar : Char → Bool) : Text × Text → Text → Text → Prop where
  /-- A run that no gap starts, and a gap. -/
  | intro {token gap blanks rest : Text} :
      IsRun isChar token (gap ++ rest) → Gap.Absent token → Gap.Written gap blanks rest →
        TokenWritten isChar (token, blanks) (token ++ gap) rest

/-- Items one after another in front of a text `rest`, each of them `Written` in front of the
others. -/
inductive Sequence {α : Type} (Written : α → Text → Text → Prop) (rest : Text) :
    List α → Text → Prop where
  /-- No items. -/
  | nil : Sequence Written rest [] []
  /-- An item, and the items after it. -/
  | cons {item : α} {items : List α} {text more : Text} :
      Written item text (more ++ rest) → Sequence Written rest items more →
        Sequence Written rest (item :: items) (text ++ more)

/-! ## Items -/

/-- A directive: an at sign, a name, a gap, a value without semicolons, a semicolon, and a gap. -/
inductive Directive.Written : Directive → Text → Text → Prop where
  /-- The value is kept as it is, or reduced to the path of an import. -/
  | intro {name gap blanks value after blanksAfter rest : Text} :
      IsRun Directive.isNameChar name (gap ++ value ++ [';']) → Gap.Closed gap blanks →
        (∀ c ∈ value, c ≠ ';') → Gap.Absent value → Gap.Written after blanksAfter rest →
          Written ⟨name, Directive.keptValue name value⟩
            ('@' :: (name ++ gap ++ value ++ ';' :: after)) rest

/-- The end of a declaration: a semicolon and a gap, or nothing before the brace that ends the
block. -/
inductive Declaration.EndWritten : Text → Text → Prop where
  /-- A semicolon and the gap after it. -/
  | semicolon {gap blanks rest : Text} :
      Gap.Written gap blanks rest → EndWritten (';' :: gap) rest
  /-- The brace that ends the block. -/
  | brace {rest : Text} : EndWritten [] ('}' :: rest)

/-- A declaration: a name, a colon and the tokens of a value, with gaps after each of them, and the
end of a declaration (`EndWritten`). The gaps inside the value leave their blanks in it. -/
inductive Declaration.Written : Declaration → Text → Text → Prop where
  /-- The value is the tokens and the blanks between them, without the blanks at its end. -/
  | intro {name gap blanks gapAfter blanksAfter value ending rest : Text}
      {tokens : List (Text × Text)} :
      IsRun Declaration.isNameChar name (gap ++ [':']) → Gap.Absent name → Gap.Closed gap blanks →
        Gap.Closed gapAfter blanksAfter →
        Sequence (TokenWritten Declaration.isValueChar) (ending ++ rest) tokens value →
        Declaration.EndWritten ending rest →
          Written ⟨name, Text.trimEnd (Gap.joinTokens tokens)⟩
            (name ++ gap ++ ':' :: (gapAfter ++ value ++ ending)) rest

/-- A block: at least one token of a selector, a brace, a gap, declarations, a brace and a gap. No
piece of the selector has more than `maxSelectorDepth` tokens. -/
inductive Block.Written : Block → Text → Text → Prop where
  /-- The selector is its tokens with one blank between two of them. -/
  | intro {selector gap blanks inside after blanksAfter rest : Text}
      {tokens : List (Text × Text)} {declarations : List Declaration} :
      tokens ≠ [] →
        Sequence (TokenWritten Block.isSelectorChar)
          ('{' :: (gap ++ inside ++ '}' :: after ++ rest)) tokens selector →
        (∀ piece ∈ (Selector.ofTokens (tokens.map (·.1))).splitOn ',',
          (Text.words piece).length ≤ maxSelectorDepth) →
        Gap.Closed gap blanks →
        Sequence Declaration.Written ('}' :: after ++ rest) declarations inside →
        Gap.Written after blanksAfter rest →
          Written ⟨Selector.ofTokens (tokens.map (·.1)), declarations⟩
            (selector ++ '{' :: (gap ++ inside ++ '}' :: after)) rest

/-! ## Documents -/

/-- What may stand after the last block: nothing, tokens up to the end of the document, or a brace
with no token in front of it and then any text. -/
inductive Ending.Written : Ending → Text → Prop where
  /-- Nothing is left. -/
  | complete : Written .complete []
  /-- The tokens of a selector without a block. -/
  | openSelector {text : Text} {tokens : List (Text × Text)} :
      tokens ≠ [] → Sequence (TokenWritten Block.isSelectorChar) [] tokens text →
        Written (.openSelector (tokens.map (·.1))) text
  /-- A brace without a selector. -/
  | trailing {rest : Text} : Written (.trailing ('{' :: rest)) ('{' :: rest)

/-- A document: a gap, directives, blocks and an ending. All directives come first, so no at sign
follows them. -/
inductive Reading.Written : Reading → Text → Prop where
  /-- The items and the ending make up the reading. -/
  | intro {gap blanks first second tail : Text} {directives : List Directive}
      {blocks : List Block} {ending : Ending} :
      Gap.Written gap blanks (first ++ second ++ tail) →
        Sequence Directive.Written (second ++ tail) directives first →
        (second ++ tail).head? ≠ some '@' →
        Sequence Block.Written tail blocks second →
        Ending.Written ending tail →
          Written ⟨directives, blocks, ending⟩ (gap ++ first ++ second ++ tail)

end SassNesting
