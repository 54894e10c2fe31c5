import ForwardChaining.Session

namespace ForwardChaining.Session

/-- Counts an entry that could not be read, telling the log why. -/
def skip (session : Session) (topic : Log.Topic) (text : String) (error : ReadError) : Session :=
  { session with
    counters := { session.counters with skipped := session.counters.skipped + 1 }
    log := session.log ++ [⟨.info, topic, s!"Skipping '{text}': {error.message}"⟩] }

/-- Counts a suggestion opposed to a value and notes it. -/
def contradict (session : Session) (origin : Origin) (source : String) (suggested : Literal)
    (existing : Bool) : Session :=
  { session with
    counters :=
      { session.counters with contradictions := session.counters.contradictions + 1 } }.note
    (.contradiction origin source suggested existing)

/-- Takes a literal that was read from an assumption. -/
def assume (session : Session) (text : String) (literal : Literal) : Session :=
  match session.facts.standing literal with
  | .fresh => (session.learn literal).note (.assumed literal)
  | .known =>
    let session := session.record [⟨.trace, .assumptions, s!"Repeated: {literal.render}"⟩]
    if session.config.traceDuplicates.value then session.note (.repeated literal) else session
  | .opposed existing => session.contradict .assumption text literal existing

/-- Reads an assumption. A blank one is passed over. -/
def readAssumption (session : Session) (entry : String) : Session :=
  let text := Text.trim entry
  if text.isEmpty then
    session
  else
    let session := session.record (Log.ofFormula text)
    match Literal.parse text with
    | .ok literal => session.assume text literal
    | .error error =>
      (session.skip .assumptions text error).note (.skippedAssumption text error)

/-- Reads the assumptions among the entries. -/
def readAssumptions (session : Session) (entries : List String) : Session :=
  (entries.filter (!Rule.isImplication ·)).foldl readAssumption session

/-- Reads a rule. -/
def readRule (session : Session) (text : String) : Session :=
  let session := session.record (Log.ofRule text)
  match Rule.parse text with
  | .ok rule =>
    { session.record [⟨.debug, .rules, s!"Read: {rule.render}"⟩] with
      rules := session.rules ++ [rule] }
  | .error error =>
    (session.skip .rules text error).note
      (if error.isFormat then .invalidRuleFormat text else .invalidRule text error)

/-- Reads the rules among the entries. -/
def readRules (session : Session) (entries : List String) : Session :=
  (entries.filter Rule.isImplication).foldl readRule session

/-- Evaluates a formula on the facts. -/
def evaluate (session : Session) (text : String) : Except ReadError Bool × Session :=
  ((Formula.parse text).map (·.holds session.facts.valueOf),
    session.record (Log.ofFormula text))

end ForwardChaining.Session
