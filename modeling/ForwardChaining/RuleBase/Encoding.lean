import ForwardChaining.Json
import ForwardChaining.RuleBase

namespace ForwardChaining.RuleBase

/-- A part of a rule base that is a list of strings. -/
inductive ListField where
  | statements
  | entries
deriving DecidableEq

/-- A part of a rule base, which has a field of its own when the rule base is written. -/
inductive Field where
  | list (field : ListField)
  | answer
deriving DecidableEq

namespace Field

/-- The key of a field. -/
def key : Field → String
  | .list .statements => "logical_statements"
  | .list .entries => "rule_representation"
  | .answer => "answer_logical_statement"

/-- The fields, in the order they are written. -/
def all : List Field :=
  [.list .statements, .list .entries, .answer]

/-- The field with the given key. -/
def ofKey? (key : String) : Option Field :=
  all.find? (·.key = key)

end Field

/-- The value of a field. -/
def fieldValue (ruleBase : RuleBase) : Field → Json
  | .list .statements => .array (ruleBase.statements.map .string)
  | .list .entries => .array (ruleBase.entries.map .string)
  | .answer => .string ruleBase.answer

/-- A rule base as an object. -/
def toJson (ruleBase : RuleBase) : Json :=
  .object (Field.all.map fun field => (field.key, ruleBase.fieldValue field))

end ForwardChaining.RuleBase
