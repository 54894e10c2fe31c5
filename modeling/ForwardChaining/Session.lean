import ForwardChaining.Config
import ForwardChaining.Step

namespace ForwardChaining

/-- What a session has counted. -/
structure Counters where
  /-- Passes through the rules. -/
  passes : Nat := 0
  /-- Values given by rules. -/
  derivations : Nat := 0
  /-- Suggestions opposed to a value. -/
  contradictions : Nat := 0
  /-- Assumptions and rules that could not be read. -/
  skipped : Nat := 0
deriving DecidableEq

/-- A caller's say in when chaining stops. It is asked before every pass. -/
structure Interrupt where
  /-- The answer to each question in turn: whether to stop. -/
  answer : Nat → Bool
  /-- How many nanoseconds an answer takes. -/
  delay : Nat := 0
  /-- How many questions were asked. -/
  asked : Nat := 0

namespace Interrupt

/-- Lets the given number of questions pass and then asks to stop. -/
def after (count : Nat) : Interrupt where
  answer question := count ≤ question

/-- Never asks to stop, but takes the given nanoseconds for every answer. -/
def slow (delay : Nat) : Interrupt where
  answer _ := false
  delay := delay

end Interrupt

/-- A derivation under way. -/
structure Session where
  config : Config := {}
  facts : Facts := ∅
  rules : List Rule := []
  /-- The steps taken, in order. -/
  trace : List Step := []
  counters : Counters := {}
  interrupt : Option Interrupt := none
  /-- The steps an observer was told of, in order, if there is an observer. -/
  observed : Option (List Step) := none
  /-- The records of the log, in order. -/
  log : List Log.Record := []

namespace Session

/-- Adds records to the log. -/
def record (session : Session) (records : List Log.Record) : Session :=
  { session with log := session.log ++ records }

@[simp] theorem config_record (session : Session) (records : List Log.Record) :
    (session.record records).config = session.config := rfl

@[simp] theorem facts_record (session : Session) (records : List Log.Record) :
    (session.record records).facts = session.facts := rfl

@[simp] theorem rules_record (session : Session) (records : List Log.Record) :
    (session.record records).rules = session.rules := rfl

@[simp] theorem trace_record (session : Session) (records : List Log.Record) :
    (session.record records).trace = session.trace := rfl

@[simp] theorem counters_record (session : Session) (records : List Log.Record) :
    (session.record records).counters = session.counters := rfl

@[simp] theorem interrupt_record (session : Session) (records : List Log.Record) :
    (session.record records).interrupt = session.interrupt := rfl

@[simp] theorem observed_record (session : Session) (records : List Log.Record) :
    (session.record records).observed = session.observed := rfl

/-- Adds a step to the trace, telling the observer and the log. -/
def note (session : Session) (step : Step) : Session :=
  { session with
    trace := session.trace ++ [step]
    observed := session.observed.map (· ++ [step])
    log := session.log ++ [⟨.debug, step.topic, step.text⟩] }

@[simp] theorem trace_note (session : Session) (step : Step) :
    (session.note step).trace = session.trace ++ [step] := rfl

@[simp] theorem observed_note (session : Session) (step : Step) :
    (session.note step).observed = session.observed.map (· ++ [step]) := rfl

@[simp] theorem config_note (session : Session) (step : Step) :
    (session.note step).config = session.config := rfl

@[simp] theorem facts_note (session : Session) (step : Step) :
    (session.note step).facts = session.facts := rfl

@[simp] theorem rules_note (session : Session) (step : Step) :
    (session.note step).rules = session.rules := rfl

@[simp] theorem counters_note (session : Session) (step : Step) :
    (session.note step).counters = session.counters := rfl

@[simp] theorem interrupt_note (session : Session) (step : Step) :
    (session.note step).interrupt = session.interrupt := rfl

/-- Adds a literal to the facts, telling the log. -/
def learn (session : Session) (literal : Literal) : Session :=
  { session with
    facts := session.facts.insert literal
    log := session.log ++ [⟨.trace, .facts, s!"Set: {literal.render}"⟩] }

@[simp] theorem facts_learn (session : Session) (literal : Literal) :
    (session.learn literal).facts = session.facts.insert literal := rfl

@[simp] theorem config_learn (session : Session) (literal : Literal) :
    (session.learn literal).config = session.config := rfl

@[simp] theorem rules_learn (session : Session) (literal : Literal) :
    (session.learn literal).rules = session.rules := rfl

@[simp] theorem trace_learn (session : Session) (literal : Literal) :
    (session.learn literal).trace = session.trace := rfl

@[simp] theorem counters_learn (session : Session) (literal : Literal) :
    (session.learn literal).counters = session.counters := rfl

@[simp] theorem interrupt_learn (session : Session) (literal : Literal) :
    (session.learn literal).interrupt = session.interrupt := rfl

@[simp] theorem observed_learn (session : Session) (literal : Literal) :
    (session.learn literal).observed = session.observed := rfl

/-- Sets a value from outside, without a step, unless the atom has one. -/
def setFact (session : Session) (literal : Literal) : Standing × Session :=
  match session.facts.standing literal with
  | .fresh => (.fresh, session.learn literal)
  | standing => (standing, session)

/-- Starts telling a new observer of every step. -/
def observe (session : Session) : Session :=
  { session with observed := some [] }

/-- Asks the interrupt whether to stop. Without one the answer is no. -/
def askInterrupt (session : Session) : Bool × Session :=
  match session.interrupt with
  | none => (false, session)
  | some interrupt =>
    (interrupt.answer interrupt.asked,
      { session with interrupt := some { interrupt with asked := interrupt.asked + 1 } })

end Session

end ForwardChaining
