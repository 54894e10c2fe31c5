import ForwardChaining.Literal
import ForwardChaining.Text.Blank

namespace ForwardChaining

/-- A premise that, when true, gives a literal. The source is the text the rule was read from. -/
structure Rule where
  premise : Formula
  conclusion : Literal
  source : String
deriving DecidableEq

namespace Rule

/-- The glyph between a premise and a conclusion. -/
def arrow : Char := '→'

/-- Whether a text is to be read as a rule: it has an arrow. -/
def isImplication (text : String) : Bool :=
  text.toList.contains arrow

/-- The trimmed texts on either side of the one arrow. -/
def sides (text : String) : Except ReadError (String × String) :=
  match text.toList.dropWhile (· ≠ arrow) with
  | [] => .error .noImplication
  | _ :: after =>
    if after.contains arrow then
      .error (.multipleImplications (after.count arrow + 1))
    else
      .ok (Text.trim (String.ofList (text.toList.takeWhile (· ≠ arrow))),
        Text.trim (String.ofList after))

/-- The rule that a text spells. -/
def parse (text : String) : Except ReadError Rule := do
  let (left, right) ← sides text
  let premise ← Formula.parse left
  let conclusion ← Literal.parse right
  return ⟨premise, conclusion, text⟩

/-- A rule as it is written, with the fewest parentheses. -/
def render (rule : Rule) : String :=
  rule.premise.render ++ " → " ++ rule.conclusion.render

end Rule

end ForwardChaining
