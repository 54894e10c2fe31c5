import ForwardChaining.RuleBase.Label

namespace ForwardChaining

/-- What is to be solved. -/
structure RuleBase where
  /-- What the atoms stand for, in the order of their labels. -/
  statements : List String := []
  /-- Assumptions and rules, as they are written. -/
  entries : List String := []
  /-- The literal whose truth is asked for, as it is written. -/
  answer : String := ""
deriving DecidableEq

namespace RuleBase

/-- Every statement with the label its position gives it, without the label it is written with. -/
def labelled (ruleBase : RuleBase) : List (String × String) :=
  ruleBase.statements.zipIdx.map fun (statement, index) =>
    (Label.ofIndex index, Label.strip statement)

/-- The statement with the given label. -/
def statement? (ruleBase : RuleBase) (label : String) : Option String :=
  ruleBase.labelled.lookup label

end RuleBase

end ForwardChaining
