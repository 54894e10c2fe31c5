import ForwardChaining.Formula.Parser

namespace ForwardChaining

/-- An atom or its negation. -/
structure Literal where
  atom : String
  polarity : Bool
deriving DecidableEq

namespace Literal

/-- A literal as it is written. -/
def render (literal : Literal) : String :=
  if literal.polarity then literal.atom else "¬" ++ literal.atom

/-- The literal that a formula is, if it is one. -/
def ofFormula : Formula → Except ReadError Literal
  | .atom name => .ok ⟨name, true⟩
  | .not (.atom name) => .ok ⟨name, false⟩
  | _ => .error .notALiteral

/-- The literal that a text spells. -/
def parse (text : String) : Except ReadError Literal := do
  ofFormula (← Formula.parse text)

/-- Literals go by their atoms, and a negated atom comes before the atom itself. -/
instance : Ord Literal where
  compare a b := (compare a.atom b.atom).then (compare a.polarity b.polarity)

/-- The literals in order, each once. -/
def sorted (literals : List Literal) : List Literal :=
  (literals.mergeSort fun a b => (compare a b).isLE).eraseReps

end Literal

end ForwardChaining
