import ForwardChaining.Session.Reading

namespace ForwardChaining

/-- The nanoseconds since chaining began, as read at each check in turn. -/
abbrev Clock := Nat → Nat

namespace Session

/-- Learns what a rule gives, counts it and notes it. -/
def derive (session : Session) (rule : Rule) : Session :=
  { session.learn rule.conclusion with
    counters :=
      { session.counters with derivations := session.counters.derivations + 1 } }.note
    (.derived rule.source rule.conclusion)

/-- Gives a rule its turn: if the premise is true, the conclusion is learnt, or passed over if
    known, or noted as a contradiction. -/
def applyRule (session : Session) (rule : Rule) : Session :=
  if rule.premise.holds session.facts.valueOf then
    match session.facts.standing rule.conclusion with
    | .fresh => session.derive rule
    | .known => session
    | .opposed existing => session.contradict .rule rule.source rule.conclusion existing
  else
    session

/-- Counts a pass, telling the log its number. -/
def beginPass (session : Session) (number : Nat) : Session :=
  { session with
    counters := { session.counters with passes := session.counters.passes + 1 }
    log := session.log ++ [⟨.trace, .chain, s!"Pass {number}"⟩] }

/-- Gives every rule its turn, in order. What one rule gives, the next can use. -/
def pass (session : Session) (number : Nat) : Session :=
  session.rules.foldl applyRule (session.beginPass number)

/-- Makes passes while they learn something, with so many passes remaining and so many made. Gives
    the outcome and how many passes were made in all. Before each pass the passes remaining are
    looked at first, then the clock, and the interrupt last. -/
def chainFrom (clock : Clock) : (remaining passes : Nat) → Session → Outcome × Nat × Session
  | 0, passes, session => (.passLimit, passes, session)
  | remaining + 1, passes, session =>
    if session.config.timeLimit.value < clock passes then
      (.timeLimit, passes, session)
    else
      match session.askInterrupt with
      | (true, session) => (.terminated, passes, session)
      | (false, session) =>
        let next := session.pass (passes + 1)
        if session.facts.size < next.facts.size then
          chainFrom clock remaining (passes + 1) next
        else
          (.fixedPoint, passes + 1, next)

/-- Notes how chaining stopped. -/
def finishChain (session : Session) (outcome : Outcome) (passes : Nat) : Session :=
  (session.record
    [⟨.info, .chain,
      s!"{outcome.name} after {passes} passes, with {session.facts.size} facts"⟩]).note
    (.ended outcome)

/-- Applies the rules until a pass learns nothing, or until a limit or the interrupt stops it. -/
def chain (session : Session) (clock : Clock) : Outcome × Session :=
  let (outcome, passes, session) := chainFrom clock session.config.passLimit.value 0 session
  (outcome, session.finishChain outcome passes)

/-- A clock on which twenty nanoseconds go by before the first check, and after that only the
    interrupt's answers take time. -/
def idealClock (session : Session) : Clock := fun check =>
  20 + check * session.interrupt.elim 0 Interrupt.delay

end Session

end ForwardChaining
