import ForwardChaining.Literal

namespace ForwardChaining

/-- The values of atoms, for those that have one. -/
abbrev Valuation := String → Option Bool

namespace Valuation

/-- No atom has a value. -/
def empty : Valuation := fun _ => none

/-- Gives the literal's atom the literal's polarity, whatever value it had. -/
def update (valuation : Valuation) (literal : Literal) : Valuation := fun atom =>
  if atom = literal.atom then some literal.polarity else valuation atom

/-- Whether the literal's atom has the literal's polarity as its value. -/
def satisfies (valuation : Valuation) (literal : Literal) : Bool :=
  valuation literal.atom == some literal.polarity

end Valuation

/-- Whether a formula is true. An atom without a value counts as false. -/
def Formula.holds (valuation : Valuation) : Formula → Bool
  | .atom name => valuation name == some true
  | .not body => !body.holds valuation
  | .and left right => left.holds valuation && right.holds valuation
  | .or left right => left.holds valuation || right.holds valuation

end ForwardChaining
