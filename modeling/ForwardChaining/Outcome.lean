namespace ForwardChaining

/-- How chaining stopped. -/
inductive Outcome where
  /-- A pass learnt nothing. -/
  | fixedPoint
  /-- All the passes allowed were made. -/
  | passLimit
  /-- More time went by than allowed. -/
  | timeLimit
  /-- The caller asked for it. -/
  | terminated
deriving DecidableEq

namespace Outcome

/-- The name of an outcome. -/
def name : Outcome → String
  | .fixedPoint => "FixedPoint"
  | .passLimit => "PassLimit"
  | .timeLimit => "TimeLimit"
  | .terminated => "Terminated"

/-- The sentence that closes a trace. -/
def sentence : Outcome → String
  | .fixedPoint => "End."
  | .passLimit => "Pass limit reached."
  | .timeLimit => "Time limit reached."
  | .terminated => "Terminated."

end Outcome

end ForwardChaining
