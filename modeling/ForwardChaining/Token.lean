namespace ForwardChaining

/-- A unit of a written formula. -/
inductive Token where
  | leftParen
  | rightParen
  | and
  | or
  | not
  | atom (name : String)
deriving DecidableEq

namespace Token

/-- The token a glyph stands for, for the characters that are one. -/
def ofGlyph? : Char → Option Token
  | '(' => some .leftParen
  | ')' => some .rightParen
  | '∧' => some .and
  | '∨' => some .or
  | '¬' => some .not
  | _ => none

/-- A token as it is written. -/
def text : Token → String
  | .leftParen => "("
  | .rightParen => ")"
  | .and => "∧"
  | .or => "∨"
  | .not => "¬"
  | .atom name => name

/-- Tokens as they are written, a space between neighbours. -/
def spaced (tokens : List Token) : String :=
  String.intercalate " " (tokens.map text)

end Token

end ForwardChaining
