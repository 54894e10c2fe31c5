import ForwardChaining.Log
import ForwardChaining.Outcome
import ForwardChaining.Verdict

namespace ForwardChaining

/-- What suggested a value: an assumption or a rule. -/
inductive Origin where
  | assumption
  | rule
deriving DecidableEq

/-- The word for an origin. -/
def Origin.word : Origin → String
  | .assumption => "axiom"
  | .rule => "rule"

/-- Something worth noting in a derivation. -/
inductive Step where
  /-- An assumption gave its atom a value. -/
  | assumed (literal : Literal)
  /-- An assumption gave a value that its atom already had. -/
  | repeated (literal : Literal)
  /-- An assumption could not be read. -/
  | skippedAssumption (text : String) (error : ReadError)
  /-- A rule does not have exactly one arrow. -/
  | invalidRuleFormat (text : String)
  /-- A side of a rule could not be read. -/
  | invalidRule (text : String) (error : ReadError)
  /-- A rule with a true premise gave its conclusion's atom a value. -/
  | derived (source : String) (conclusion : Literal)
  /-- An assumption, or a rule with a true premise, suggested the opposite of a value. -/
  | contradiction (origin : Origin) (source : String) (suggested : Literal) (existing : Bool)
  /-- The answer could not be read as a literal. -/
  | invalidAnswer (text : String) (error : ReadError)
  /-- Chaining stopped. -/
  | ended (outcome : Outcome)
deriving DecidableEq

namespace Step

/-- A step as a sentence. -/
def text : Step → String
  | .assumed literal => s!"{literal.atom} = {truthWord literal.polarity}"
  | .repeated literal => s!"{literal.atom} already {truthWord literal.polarity}"
  | .skippedAssumption text error => s!"Skipping axiom '{text}': {error.message}"
  | .invalidRuleFormat text => s!"Invalid rule format (should have one '→'): {text}"
  | .invalidRule text error => s!"Error parsing rule '{text}': {error.message}"
  | .derived source conclusion =>
    s!"'{source}' so {conclusion.atom} = {truthWord conclusion.polarity}"
  | .contradiction origin source suggested existing =>
    s!"Contradiction detected for {suggested.atom}: existing value {truthWord existing}, " ++
      s!"{origin.word} '{source}' suggests {truthWord suggested.polarity}"
  | .invalidAnswer text error =>
    s!"Error parsing answer logical statement '{text}': {error.message}"
  | .ended outcome => outcome.sentence

/-- The part of the work that a step belongs to. -/
def topic : Step → Log.Topic
  | .assumed _ | .repeated _ | .skippedAssumption _ _ => .assumptions
  | .contradiction .assumption _ _ _ => .assumptions
  | .invalidRuleFormat _ | .invalidRule _ _ => .rules
  | .invalidAnswer _ _ => .answer
  | .derived _ _ | .contradiction .rule _ _ _ | .ended _ => .chain

end Step

end ForwardChaining
