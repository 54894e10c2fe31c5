namespace ForwardChaining

/-- Why a written token list, formula, literal or rule could not be read. -/
inductive ReadError where
  /-- The character is neither blank nor a glyph nor part of an atom. The position counts
      characters from the start of the text. -/
  | unexpectedCharacter (character : Char) (position : Nat)
  /-- The tokens ran out where an operand was due. -/
  | unexpectedEnd
  /-- An opening parenthesis is not answered by a closing one. -/
  | missingClosingParenthesis
  /-- The token cannot begin an operand. -/
  | unexpectedToken (text : String)
  /-- Tokens are left over after a complete formula. -/
  | trailingTokens (text : String)
  /-- Negations and parentheses are nested, or operators stacked, beyond the limit. -/
  | tooDeep (limit : Nat)
  /-- The formula is neither an atom nor a negated atom. -/
  | notALiteral
  /-- The text has no implication arrow. -/
  | noImplication
  /-- The text has more than one implication arrow. -/
  | multipleImplications (count : Nat)
deriving DecidableEq

/-- The wording of an error. -/
def ReadError.message : ReadError → String
  | .unexpectedCharacter character position =>
    s!"Unexpected character '{character}' at position {position}"
  | .unexpectedEnd => "Unexpected end of tokens in atom parsing"
  | .missingClosingParenthesis => "Missing closing parenthesis"
  | .unexpectedToken text => s!"Unexpected token '{text}' in atom parsing"
  | .trailingTokens text => s!"Unexpected tokens remaining: {text}"
  | .tooDeep limit => s!"Expression nested deeper than {limit}"
  | .notALiteral => "Conclusion must be a literal (atom or its negation)"
  | .noImplication => "Invalid rule format (should have one '→'): no '→' found"
  | .multipleImplications count => s!"Invalid rule format (should have one '→'): {count} found"

/-- Whether the error is about the number of arrows, and not about either side of one. -/
def ReadError.isFormat : ReadError → Bool
  | .noImplication | .multipleImplications _ => true
  | _ => false

/-- Reading in two stages gives a result exactly if both stages do. -/
theorem ReadError.bind_eq_ok_iff {α β : Type} {first : Except ReadError α}
    {next : α → Except ReadError β} {result : β} :
    (first >>= next) = .ok result ↔ ∃ value, first = .ok value ∧ next value = .ok result := by
  cases first <;> simp [bind, Except.bind]

theorem ReadError.map_eq_ok_iff {α β : Type} {first : Except ReadError α} {next : α → β}
    {result : β} :
    first.map next = .ok result ↔ ∃ value, first = .ok value ∧ next value = result := by
  cases first <;> simp [Except.map]

/-- Reading in two stages fails exactly if the first stage does, or the second on its result. -/
theorem ReadError.bind_eq_error_iff {α β : Type} {first : Except ReadError α}
    {next : α → Except ReadError β} {error : ReadError} :
    (first >>= next) = .error error ↔
      first = .error error ∨ ∃ value, first = .ok value ∧ next value = .error error := by
  cases first <;> simp [bind, Except.bind]

end ForwardChaining
