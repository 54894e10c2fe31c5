import ForwardChaining.Json
import ForwardChaining.Solution

namespace ForwardChaining

/-- Facts as an object from atoms to values, in order. -/
def Facts.toJson (facts : Facts) : Json :=
  .object (facts.literals.map fun literal => (literal.atom, .bool literal.polarity))

/-- A step as its sentence. -/
def Step.toJson (step : Step) : Json :=
  .string step.text

/-- A solution as an object. The verdict is null if the answer is not a literal. -/
def Solution.toJson (solution : Solution) : Json :=
  .object
    [("result", .string solution.result),
      ("facts", solution.facts.toJson),
      ("steps", .array (solution.steps.map Step.toJson)),
      ("is_answer_true", solution.isAnswerTrue.elim .null .bool)]

end ForwardChaining
