import ForwardChaining.RuleBase
import ForwardChaining.Step

namespace ForwardChaining

/-- What solving a rule base gives. -/
structure Solution where
  /-- The verdict as a sentence. -/
  result : String
  facts : Facts
  steps : List Step
  /-- The verdict on the answer, if the answer is a literal. -/
  isAnswerTrue : Option Bool

namespace Solution

/-- The label that an answer names, and whether the answer negates it. -/
def labelOf (answer : String) : String × Bool :=
  match (Text.trim answer).toList with
  | '¬' :: label => (Text.trim (String.ofList label), true)
  | _ => (Text.trim answer, false)

/-- What a verdict says of the statement whose label the answer is, or whose label the answer
    negates. -/
def conclusionOn (isAnswerTrue : Option Bool) (ruleBase : RuleBase) : Option String := do
  let verdict ← isAnswerTrue
  let (label, negated) := labelOf ruleBase.answer
  let statement ← ruleBase.statement? label
  return s!"The statement '{statement}' is {truthWord (verdict != negated)}."

/-- What a solution of a rule base says of the statement its answer is about. -/
def conclusion (solution : Solution) (ruleBase : RuleBase) : Option String :=
  conclusionOn solution.isAnswerTrue ruleBase

end Solution

end ForwardChaining
