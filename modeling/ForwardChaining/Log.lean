import ForwardChaining.Rule

namespace ForwardChaining.Log

/-- How much a record matters. -/
inductive Level where
  | trace
  | debug
  | info
deriving DecidableEq

/-- The name of a level. -/
def Level.name : Level → String
  | .trace => "TRACE"
  | .debug => "DEBUG"
  | .info => "INFO"

/-- The part of the work that a record is about. -/
inductive Topic where
  | tokens
  | formulas
  | facts
  | assumptions
  | rules
  | chain
  | answer
deriving DecidableEq

/-- The name of a topic. -/
def Topic.name : Topic → String
  | .tokens => "tokenize"
  | .formulas => "parse"
  | .facts => "facts"
  | .assumptions => "axioms"
  | .rules => "rules"
  | .chain => "chain"
  | .answer => "answer"

/-- A line of the log. -/
structure Record where
  level : Level
  topic : Topic
  message : String
deriving DecidableEq

/-- A record as a line. -/
def Record.line (record : Record) : String :=
  s!"{record.level.name} {record.topic.name} {record.message}"

/-- What is recorded when a text is cut into tokens. -/
def ofTokens (text : String) : List Record :=
  match Token.tokenize text with
  | .ok tokens => [⟨.trace, .tokens, s!"{tokens.length} tokens from: {text}"⟩]
  | .error (.unexpectedCharacter character _) =>
    [⟨.trace, .tokens, s!"Unexpected '{character}' in: {text}"⟩]
  | .error _ => []

/-- What is recorded when a text is read as a formula or as a literal. -/
def ofFormula (text : String) : List Record :=
  match Formula.parse text with
  | .ok formula =>
    ofTokens text ++ [⟨.trace, .formulas, s!"Parsed '{text}' to: {formula.outline}"⟩]
  | .error _ => ofTokens text

/-- What is recorded when a text is read as a rule: the conclusion is read only if the premise
    could be. -/
def ofRule (text : String) : List Record :=
  match Rule.sides text with
  | .error _ => []
  | .ok (left, right) =>
    match Formula.parse left with
    | .ok _ => ofFormula left ++ ofFormula right
    | .error _ => ofFormula left

end ForwardChaining.Log
