import SassNesting.Document.Reading

/-! # Where lexemes end

The readers of documents take lexemes from a text, tokens and marks, and look for a gap after each
of them. The relations of this file follow a reader through a text and tell where that happens:
`Directive.Ends t l after` says that a directive is read from `t`, and that after a lexeme `l` of it
the text `after` is left. `Reading.Ends` puts them together: these are all the places of a document
at which a gap may stand, but for its start. -/

namespace SassNesting

/-! ## Lexemes -/

/-- What a reader of documents takes from a text before it looks for a gap. -/
inductive Lexeme where
  /-- The name of a directive. -/
  | directiveName
  /-- A token of a selector. -/
  | selectorToken
  /-- The name of a declaration. -/
  | declarationName
  /-- A token of a value. -/
  | valueToken
  /-- The brace that opens a block. -/
  | openBrace
  /-- The brace that ends a block. -/
  | closeBrace
  /-- The colon after the name of a declaration. -/
  | colon
  /-- The semicolon after a directive or a declaration. -/
  | semicolon
deriving DecidableEq

/-- Whether a lexeme is a run of characters, which goes on as long as it can; the others are single
characters. -/
def Lexeme.isRun : Lexeme → Bool
  | directiveName | selectorToken | declarationName | valueToken => true
  | openBrace | closeBrace | colon | semicolon => false

/-! ## Tokens -/

/-- Among the tokens that are read from a text there is one after which `after` is left. -/
inductive Gap.TokenEnds (isChar : Char → Bool) : Text → Text → Prop where
  /-- The first token. -/
  | first {t after : Text} :
      t.takeWhile isChar ≠ [] → t.dropWhile isChar = after → TokenEnds isChar t after
  /-- A token behind the gap after the first one. -/
  | later {t after : Text} : t.takeWhile isChar ≠ [] →
      TokenEnds isChar (skip (t.dropWhile isChar)) after → TokenEnds isChar t after

/-! ## Directives -/

/-- In reading a directive, from the text that follows its at sign, a lexeme ends where `after` is
left. -/
inductive Directive.Ends (t : Text) : Lexeme → Text → Prop where
  /-- The name. -/
  | name {after : Text} :
      t.takeWhile isNameChar ≠ [] → t.dropWhile isNameChar = after → Ends t .directiveName after
  /-- The semicolon after the value. -/
  | semicolon {after : Text} : t.takeWhile isNameChar ≠ [] →
      (Gap.skip (t.dropWhile isNameChar)).dropWhile isValueChar = ';' :: after →
        Ends t .semicolon after

/-- In reading directives a lexeme of one of them ends where `after` is left. -/
inductive Directive.EndsInAll : Text → Lexeme → Text → Prop where
  /-- A lexeme of the first directive. -/
  | first {t after : Text} {l : Lexeme} : Ends t l after → EndsInAll ('@' :: t) l after
  /-- A lexeme of a directive after the first one. -/
  | later {t rest after : Text} {d : Directive} {l : Lexeme} :
      read t = .ok (d, rest) → EndsInAll rest l after → EndsInAll ('@' :: t) l after

/-! ## Declarations -/

/-- In reading a declaration, from a text that starts with its name, a lexeme ends where `after` is
left. -/
inductive Declaration.Ends (t : Text) : Lexeme → Text → Prop where
  /-- The name. -/
  | name {after : Text} : t.dropWhile isNameChar = after → Ends t .declarationName after
  /-- The colon. -/
  | colon {after : Text} :
      Gap.skip (t.dropWhile isNameChar) = ':' :: after → Ends t .colon after
  /-- A token of the value. -/
  | value {valueOn after : Text} :
      Gap.skip (t.dropWhile isNameChar) = ':' :: valueOn →
        Gap.TokenEnds isValueChar (Gap.skip valueOn) after → Ends t .valueToken after
  /-- The semicolon after the value. -/
  | semicolon {valueOn after : Text} :
      Gap.skip (t.dropWhile isNameChar) = ':' :: valueOn →
        (readValue (Gap.skip valueOn)).2 = ';' :: after → Ends t .semicolon after

/-! ## Blocks -/

/-- In reading the declarations of a block and its closing brace a lexeme ends where `after` is
left. -/
inductive Block.EndsInside : Text → Lexeme → Text → Prop where
  /-- A lexeme of the first declaration. -/
  | first {t after : Text} {l : Lexeme} : t.takeWhile Declaration.isNameChar ≠ [] →
      Declaration.Ends t l after → EndsInside t l after
  /-- A lexeme behind the first declaration. -/
  | later {t rest after : Text} {d : Declaration} {l : Lexeme} :
      t.takeWhile Declaration.isNameChar ≠ [] → Declaration.read t = .ok (d, rest) →
        EndsInside rest l after → EndsInside t l after
  /-- The closing brace. -/
  | brace {after : Text} : EndsInside ('}' :: after) .closeBrace after

/-- In reading a block a lexeme ends where `after` is left. -/
inductive Block.Ends (t : Text) : Lexeme → Text → Prop where
  /-- A token of the selector. -/
  | token {after : Text} : Gap.TokenEnds isSelectorChar t after → Ends t .selectorToken after
  /-- The opening brace after a selector within the limit. -/
  | brace {tokens : List Text} {after : Text} :
      readSelector t = (tokens, '{' :: after) → tokens ≠ [] →
        Selector.depth (Selector.ofTokens tokens) ≤ maxSelectorDepth → Ends t .openBrace after
  /-- A lexeme between the braces, or the closing brace. -/
  | inside {tokens : List Text} {inside after : Text} {l : Lexeme} :
      readSelector t = (tokens, '{' :: inside) → tokens ≠ [] →
        Selector.depth (Selector.ofTokens tokens) ≤ maxSelectorDepth →
          EndsInside (Gap.skip inside) l after → Ends t l after

/-- In reading blocks a lexeme of one of them, or of the selector after them, ends where `after` is
left. -/
inductive Block.EndsInAll : Text → Lexeme → Text → Prop where
  /-- A lexeme of the first block. -/
  | first {t after : Text} {l : Lexeme} : Ends t l after → EndsInAll t l after
  /-- A lexeme behind the first block. -/
  | later {t rest after : Text} {b : Block} {l : Lexeme} :
      read t = .ok (b, rest) → EndsInAll rest l after → EndsInAll t l after

/-! ## Documents -/

/-- In reading a document a lexeme ends where `after` is left. -/
inductive Reading.Ends (t : Text) : Lexeme → Text → Prop where
  /-- A lexeme of a directive. -/
  | directive {after : Text} {l : Lexeme} :
      Directive.EndsInAll (Gap.skip t) l after → Ends t l after
  /-- A lexeme behind the directives. -/
  | block {directives : List Directive} {rest after : Text} {l : Lexeme} :
      Directive.readAll (Gap.skip t) = (directives, .ok rest) → Block.EndsInAll rest l after →
        Ends t l after

end SassNesting
