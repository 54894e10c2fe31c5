import ForwardChaining.Proofs.Session.Solving

namespace ForwardChaining

/-- A call on a session. -/
inductive Operation where
  | readAssumption (entry : String)
  | readAssumptions (entries : List String)
  | readRule (text : String)
  | readRules (entries : List String)
  | chain (clock : Clock)
  | answer (text : String)
  | reportOn (text : String)
  /-- Changes the settings, limits included, in any way at all. -/
  | configure (config : Config)
  /-- Puts another interrupt in place, or takes it away. -/
  | interruptBy (interrupt : Option Interrupt)

namespace Operation

/-- The literals of the assumptions that a call reads. -/
def assumptions : Operation → List Literal
  | .readAssumption entry => (Literal.ofEntry? entry).toList
  | .readAssumptions entries =>
    (entries.filter (!Rule.isImplication ·)).filterMap Literal.ofEntry?
  | _ => []

def rules : Operation → List Rule
  | .readRule text => (Rule.ofText? text).toList
  | .readRules entries => (entries.filter Rule.isImplication).filterMap Rule.ofText?
  | _ => []

end Operation

namespace Session

/-- A session in which nothing has been read, with any settings, interrupt and observer. -/
def fresh (config : Config) (interrupt : Option Interrupt) (observed : Option (List Step)) :
    Session :=
  { config := config, interrupt := interrupt, observed := observed }

def perform (session : Session) : Operation → Session
  | .readAssumption entry => session.readAssumption entry
  | .readAssumptions entries => session.readAssumptions entries
  | .readRule text => session.readRule text
  | .readRules entries => session.readRules entries
  | .chain clock => (session.chain clock).2
  | .answer text => (session.answer text).2
  | .reportOn text => (session.reportOn text).2
  | .configure config => { session with config := config }
  | .interruptBy interrupt => { session with interrupt := interrupt }

/-- The session after any number of calls, in order. -/
def run (session : Session) (operations : List Operation) : Session :=
  operations.foldl perform session

/-- Every call goes through moves that assume only what the call reads. -/
theorem perform_reaches (session : Session) (operation : Operation) :
    Account.Reaches (· ∈ operation.assumptions) session.account
      (session.perform operation).account := by
  cases operation with
  | readAssumption entry =>
    exact readAssumption_reaches session entry fun literal hliteral =>
      Option.mem_toList.mpr hliteral
  | readAssumptions entries =>
    refine foldl_reaches (fun entry hentry session => ?_) session
    exact readAssumption_reaches session entry fun literal hliteral =>
      List.mem_filterMap.mpr ⟨entry, hentry, hliteral⟩
  | readRule text => exact readRule_reaches session text
  | readRules entries =>
    exact foldl_reaches (fun text _ session => readRule_reaches session text) session
  | chain clock => exact chain_reaches session clock
  | answer text => exact answer_reaches session text
  | reportOn text => exact .refl
  | configure config => exact .refl
  | interruptBy interrupt => exact .refl

/-- A run goes through moves that assume only what the run reads. -/
theorem run_reaches (session : Session) (operations : List Operation) :
    Account.Reaches (· ∈ operations.flatMap Operation.assumptions) session.account
      (session.run operations).account := by
  refine foldl_reaches (fun operation hoperation session => ?_) session
  exact (perform_reaches session operation).mono fun literal hliteral =>
    List.mem_flatMap.mpr ⟨operation, hoperation, hliteral⟩

theorem rules_chain (session : Session) (clock : Clock) :
    (session.chain clock).2.rules = session.rules := by
  obtain ⟨made, hchained⟩ := chain_chained session clock
  exact (congrArg Account.rules hchained.account).trans (session.account.rules_afterPasses made)

/-- The texts read as rules add the rules they give, and nothing else adds one. -/
theorem rules_perform (session : Session) (operation : Operation) :
    (session.perform operation).rules = session.rules ++ operation.rules := by
  change (session.perform operation).account.rules = session.account.rules ++ operation.rules
  cases operation with
  | readAssumption entry =>
    dsimp only [perform, Operation.rules]
    rw [account_readAssumption, List.append_nil]
    cases Literal.entryStep? session.config entry session.facts <;> rfl
  | readAssumptions entries =>
    dsimp only [perform, Operation.rules]
    rw [account_readAssumptions, Account.rules_takeAll, List.append_nil]
  | readRule text =>
    dsimp only [perform, Operation.rules]
    rw [account_readRule, Account.rules_addRules, Account.rules_takeAll]
  | readRules entries =>
    dsimp only [perform, Operation.rules]
    rw [account_readRules, Account.rules_addRules, Account.rules_takeAll]
    rfl
  | chain clock => exact (rules_chain session clock).trans (List.append_nil _).symm
  | answer text =>
    dsimp only [perform, Operation.rules]
    rw [account_answer, Account.rules_takeAll, List.append_nil]
  | reportOn text => exact (List.append_nil _).symm
  | configure config => exact (List.append_nil _).symm
  | interruptBy interrupt => exact (List.append_nil _).symm

/-- A run leaves the rules it read behind those that were there. -/
theorem rules_run (session : Session) (operations : List Operation) :
    (session.run operations).rules = session.rules ++ operations.flatMap Operation.rules := by
  induction operations generalizing session with
  | nil => simp [run]
  | cons operation rest ih =>
    have hrest := ih (session.perform operation)
    rw [rules_perform, List.append_assoc] at hrest
    exact hrest

end Session

end ForwardChaining
