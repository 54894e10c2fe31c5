import ForwardChaining.Facts

namespace ForwardChaining

/-- The word for a truth value. -/
def truthWord (value : Bool) : String :=
  if value then "True" else "False"

/-- The verdict on an answer. -/
inductive Verdict where
  /-- The answer's atom has the answer's polarity as its value. -/
  | holds
  /-- The answer's atom has no value, or the opposite one. -/
  | fails
  /-- The answer is not a literal. -/
  | undefined
deriving DecidableEq

namespace Verdict

/-- The verdict on a literal: an atom without a value makes neither of its literals true. -/
def ofFacts (facts : Facts) (literal : Literal) : Verdict :=
  if facts.valueOf.satisfies literal then .holds else .fails

/-- The verdict as a truth value, if the answer is a literal. -/
def value? : Verdict → Option Bool
  | .holds => some true
  | .fails => some false
  | .undefined => none

/-- The name of a verdict. -/
def name : Verdict → String
  | .holds => "True"
  | .fails => "False"
  | .undefined => "Undefined"

/-- The verdict on an answer as a sentence. -/
def sentence (verdict : Verdict) (answer : String) : String :=
  match verdict.value? with
  | some value => s!"'{answer}' is {truthWord value}."
  | none => "Invalid answer logical statement."

end Verdict

end ForwardChaining
