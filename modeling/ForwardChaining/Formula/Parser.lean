import ForwardChaining.Formula
import ForwardChaining.Token.Lexer

namespace ForwardChaining.Formula

/-- The most negations and opening parentheses open at one point of a text, and the greatest
    height of a formula that is read. -/
def depthLimit : Nat := 256

/-- A formula read from the front of a token list, with its height and the tokens after it. -/
structure Parsed where
  formula : Formula
  height : Nat
  rest : List Token
deriving DecidableEq

/-- Reads a formula from the front of a token list. -/
abbrev Parser := List Token → Except ReadError Parsed

namespace Parser

/-- The height, unless it is beyond the limit. -/
def bounded (height : Nat) : Except ReadError Nat :=
  if height ≤ depthLimit then .ok height else .error (.tooDeep depthLimit)

theorem bounded_eq_ok_iff {height result : Nat} :
    bounded height = .ok result ↔ result = height ∧ height ≤ depthLimit := by
  unfold bounded
  split <;> simp <;> omega

/-- Extends a formula that has been read by every further operand joined to it with the operator,
    grouping to the left. Each operand adds to the height, so the limit ends the loop. -/
def extend (operator : Token) (join : Formula → Formula → Formula) (operand : Parser)
    (left : Parsed) : Except ReadError Parsed :=
  match left.rest with
  | [] => .ok left
  | token :: rest =>
    if token = operator then
      match operand rest with
      | .error error => .error error
      | .ok right =>
        if max left.height right.height + 1 ≤ depthLimit then
          extend operator join operand
            ⟨join left.formula right.formula, max left.height right.height + 1, right.rest⟩
        else
          .error (.tooDeep depthLimit)
    else
      .ok left
termination_by depthLimit - left.height
decreasing_by omega

/-- Operands separated by the operator, grouped to the left. -/
def separated (operator : Token) (join : Formula → Formula → Formula) (operand : Parser) :
    Parser := fun tokens => do
  extend operator join operand (← operand tokens)

/-- One or more operands joined by `∧`. -/
def conjunctionOf (operand : Parser) : Parser :=
  separated .and Formula.and operand

/-- One or more conjunctions joined by `∨`. -/
def disjunctionOf (operand : Parser) : Parser :=
  separated .or Formula.or (conjunctionOf operand)

/-- An operand: an atom, a negated operand, or a formula in parentheses. The allowance is how many
    more negations and parentheses may be opened. -/
def operand : (allowance : Nat) → Parser
  | _, [] => .error .unexpectedEnd
  | _, .atom name :: rest => .ok ⟨.atom name, 0, rest⟩
  | 0, .not :: _ => .error (.tooDeep depthLimit)
  | allowance + 1, .not :: rest => do
    let inner ← operand allowance rest
    let height ← bounded (inner.height + 1)
    return ⟨.not inner.formula, height, inner.rest⟩
  | 0, .leftParen :: _ => .error (.tooDeep depthLimit)
  | allowance + 1, .leftParen :: rest => do
    let inner ← disjunctionOf (operand allowance) rest
    match inner.rest with
    | .rightParen :: after => return ⟨inner.formula, inner.height, after⟩
    | _ => throw .missingClosingParenthesis
  | _, token :: _ => .error (.unexpectedToken token.text)

/-- A formula whose operators are `∧` at least, with the given allowance. -/
def conjunction (allowance : Nat) : Parser :=
  conjunctionOf (operand allowance)

/-- A formula with any operators, with the given allowance. -/
def disjunction (allowance : Nat) : Parser :=
  disjunctionOf (operand allowance)

end Parser

/-- The formula that a whole token list spells. -/
def ofTokens (tokens : List Token) : Except ReadError Formula := do
  let parsed ← Parser.disjunction depthLimit tokens
  match parsed.rest with
  | [] => return parsed.formula
  | rest => throw (.trailingTokens (Token.spaced rest))

/-- The formula that a text spells. -/
def parse (text : String) : Except ReadError Formula := do
  ofTokens (← Token.tokenize text)

end ForwardChaining.Formula
