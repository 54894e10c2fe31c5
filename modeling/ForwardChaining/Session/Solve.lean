import ForwardChaining.Session.Answer
import ForwardChaining.Session.Chain
import ForwardChaining.Solution

namespace ForwardChaining

namespace Session

/-- Reads the entries of a rule base, the assumptions before the rules. -/
def load (session : Session) (ruleBase : RuleBase) : Session :=
  (session.readAssumptions ruleBase.entries).readRules ruleBase.entries

/-- Answers a rule base once chaining has stopped. -/
def conclude (session : Session) (ruleBase : RuleBase) : Solution × Session :=
  let text := Text.trim ruleBase.answer
  let (verdict, session) := session.answer text
  (⟨verdict.sentence text, session.facts, session.trace, verdict.value?⟩, session)

/-- Solves a rule base, keeping what the session has read before. -/
def solve (session : Session) (ruleBase : RuleBase) (clock : Clock) : Solution × Session :=
  ((session.load ruleBase).chain clock).2.conclude ruleBase

end Session

/-- Solves a rule base on its own. -/
def RuleBase.solve (ruleBase : RuleBase) (config : Config) (clock : Clock) : Solution :=
  (Session.solve { config := config } ruleBase clock).1

end ForwardChaining
