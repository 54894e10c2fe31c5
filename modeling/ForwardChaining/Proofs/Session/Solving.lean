import ForwardChaining.Proofs.Session.Chaining
import ForwardChaining.Proofs.Session.Reading
import ForwardChaining.Proofs.Text.Trimming

namespace ForwardChaining

/-- The step that notes an answer which is not a literal. -/
def Literal.answerRefusal? (answer : String) : Option Step :=
  match parse (Text.trim answer) with
  | .ok _ => none
  | .error error => some (.invalidAnswer (Text.trim answer) error)

theorem Literal.answerRefusal?_eq_some_iff {answer : String} {step : Step} :
    answerRefusal? answer = some step ↔ ∃ error, parse (Text.trim answer) = .error error ∧
      step = .invalidAnswer (Text.trim answer) error := by
  unfold answerRefusal?
  cases parse (Text.trim answer) <;> simp [eq_comm]

/-- The verdict on an answer by the facts. -/
def Verdict.onAnswer (facts : Facts) (answer : String) : Verdict :=
  match Literal.parse (Text.trim answer) with
  | .ok literal => ofFacts facts literal
  | .error _ => undefined

theorem Verdict.value?_ofFacts (facts : Facts) (literal : Literal) :
    (ofFacts facts literal).value? = some (facts.valueOf.satisfies literal) := by
  unfold ofFacts
  cases facts.valueOf.satisfies literal <;> rfl

theorem Verdict.value?_onAnswer {facts : Facts} {answer : String} {literal : Literal}
    (hparse : Literal.parse (Text.trim answer) = .ok literal) :
    (onAnswer facts answer).value? = some (facts.valueOf.satisfies literal) := by
  simp only [onAnswer, hparse, value?_ofFacts]

/-- What an account comes to as a solution of a rule base. -/
def Account.solution (account : Account) (ruleBase : RuleBase) : Solution :=
  let verdict := Verdict.onAnswer account.facts (Text.trim ruleBase.answer)
  ⟨verdict.sentence (Text.trim ruleBase.answer), account.facts, account.trace, verdict.value?⟩

namespace Session

theorem verdict_answer (session : Session) (text : String) :
    (session.answer text).1 = Verdict.onAnswer session.facts text := by
  unfold answer Verdict.onAnswer
  dsimp only
  cases Literal.parse (Text.trim text) <;> rfl

theorem account_answer (session : Session) (text : String) :
    (session.answer text).2.account =
      session.account.takeAll (Literal.answerRefusal? text).toList := by
  unfold answer Literal.answerRefusal?
  dsimp only
  cases Literal.parse (Text.trim text) <;> rfl

theorem facts_answer (session : Session) (text : String) :
    (session.answer text).2.facts = session.facts := by
  unfold answer
  dsimp only
  split <;> rfl

/-- A solution says what the final account comes to and nothing else. -/
theorem solve_solution (session : Session) (ruleBase : RuleBase) (clock : Clock) :
    (session.solve ruleBase clock).1 =
      (session.solve ruleBase clock).2.account.solution ruleBase := by
  have hverdict := verdict_answer ((session.load ruleBase).chain clock).2
    (Text.trim ruleBase.answer)
  rw [← facts_answer _ (Text.trim ruleBase.answer)] at hverdict
  unfold solve conclude Account.solution
  dsimp only
  rw [hverdict]
  rfl

theorem isAnswerTrue_solve (session : Session) (ruleBase : RuleBase) (clock : Clock) :
    (session.solve ruleBase clock).1.isAnswerTrue =
      (Verdict.onAnswer (session.solve ruleBase clock).1.facts
        (Text.trim ruleBase.answer)).value? := by
  rw [solve_solution]
  rfl

/-- All that solving does: the steps of reading the entries, those of the passes, the one that says
    how chaining stopped, and the one on an answer that is not a literal. -/
theorem account_solve {session : Session} {ruleBase : RuleBase} {clock : Clock}
    {outcome : Outcome} {made : Nat}
    (h : Chained (session.load ruleBase) ((session.load ruleBase).chain clock).2 outcome made) :
    (session.solve ruleBase clock).2.account =
      ((session.account.addRules (Rule.ofEntries ruleBase.entries)).addPasses made).takeAll
        (session.facts.loadSteps session.config ruleBase.entries ++
          ((session.load ruleBase).facts.passSteps (session.load ruleBase).rules made ++
            .ended outcome :: (Literal.answerRefusal? (Text.trim ruleBase.answer)).toList)) := by
  have hanswer := account_answer ((session.load ruleBase).chain clock).2 (Text.trim ruleBase.answer)
  have hload := account_load session ruleBase
  rw [h.account] at hanswer
  refine hanswer.trans ?_
  rw [Account.takeAll_append, Account.takeAll_append, Account.takeAll_addPasses,
    Account.takeAll_addRules, ← hload]
  rfl

end Session

namespace RuleBase

/-- The facts that reading the entries on their own leaves. -/
def assumedFacts (ruleBase : RuleBase) (config : Config) : Facts :=
  Facts.replay ((∅ : Facts).loadSteps config ruleBase.entries)

theorem facts_load (ruleBase : RuleBase) (config : Config) :
    (Session.load { config := config } ruleBase).facts = ruleBase.assumedFacts config :=
  Session.facts_load _ ruleBase

theorem rules_load (ruleBase : RuleBase) (config : Config) :
    (Session.load { config := config } ruleBase).rules = Rule.ofEntries ruleBase.entries :=
  (Session.rules_load _ ruleBase).trans (List.nil_append _)

theorem solve_eq_solution (ruleBase : RuleBase) (config : Config) (clock : Clock) :
    ruleBase.solve config clock =
      (Session.solve { config := config } ruleBase clock).2.account.solution ruleBase :=
  Session.solve_solution _ ruleBase clock

/-- The steps of a solution, phase by phase. -/
theorem steps_solve {ruleBase : RuleBase} {config : Config} {clock : Clock} {outcome : Outcome}
    {made : Nat}
    (h : Session.Chained (Session.load { config := config } ruleBase)
      ((Session.load { config := config } ruleBase).chain clock).2 outcome made) :
    (ruleBase.solve config clock).steps =
      ((∅ : Facts).loadSteps config ruleBase.entries ++
        (ruleBase.assumedFacts config).passSteps (Rule.ofEntries ruleBase.entries) made ++
          [.ended outcome]) ++ (Literal.answerRefusal? ruleBase.answer).toList := by
  have haccount := congrArg Account.trace (Session.account_solve h)
  rw [facts_load, rules_load, Account.trace_takeAll] at haccount
  have hanswer : Literal.answerRefusal? (Text.trim ruleBase.answer) =
      Literal.answerRefusal? ruleBase.answer := by
    simp only [Literal.answerRefusal?, Text.trim_trim]
  rw [hanswer] at haccount
  rw [solve_eq_solution]
  refine haccount.trans ?_
  simp only [List.append_assoc, List.singleton_append]
  rfl

/-- The facts of a solution are what its steps add up to. -/
theorem facts_solve (ruleBase : RuleBase) (config : Config) (clock : Clock) :
    (ruleBase.solve config clock).facts = Facts.replay (ruleBase.solve config clock).steps := by
  obtain ⟨made, hchained⟩ :=
    Session.chain_chained (Session.load { config := config } ruleBase) clock
  have haccount := Session.account_solve hchained
  rw [solve_eq_solution]
  change (Session.solve _ ruleBase clock).2.account.facts =
    Facts.replay (Session.solve _ ruleBase clock).2.account.trace
  rw [haccount, Account.facts_takeAll, Account.trace_takeAll]
  rfl

/-- A solution says nothing that does not follow from its steps and the answer asked for. -/
theorem solve_eq_of_steps {first second : RuleBase} {config config' : Config}
    {clock clock' : Clock} (hanswer : Text.trim first.answer = Text.trim second.answer)
    (hsteps : (first.solve config clock).steps = (second.solve config' clock').steps) :
    first.solve config clock = second.solve config' clock' := by
  have hfacts : (first.solve config clock).facts = (second.solve config' clock').facts := by
    rw [facts_solve, facts_solve, hsteps]
  rw [solve_eq_solution, solve_eq_solution] at hsteps hfacts ⊢
  simp only [Account.solution] at hsteps hfacts ⊢
  rw [hsteps, hfacts, hanswer]

/-- Rule bases whose entries take the same steps when they are read, and whose rules take the same
    steps in every pass that the first of them makes, take the same steps up to the answer, as long
    as neither is stopped by its clock. -/
theorem solve_lockstep {first second : RuleBase} {config : Config} {clock clock' : Clock}
    (hload : (∅ : Facts).loadSteps config second.entries =
      (∅ : Facts).loadSteps config first.entries)
    (hpasses : ∀ count, (first.assumedFacts config).passSteps (Rule.ofEntries first.entries) count ⊆
        (first.solve config clock).steps →
      (first.assumedFacts config).passSteps (Rule.ofEntries second.entries) count =
        (first.assumedFacts config).passSteps (Rule.ofEntries first.entries) count)
    (htime : .ended .timeLimit ∉ (first.solve config clock).steps)
    (htime' : .ended .timeLimit ∉ (second.solve config clock').steps) :
    ∃ shared,
      (first.solve config clock).steps =
        shared ++ (Literal.answerRefusal? first.answer).toList ∧
      (second.solve config clock').steps =
        shared ++ (Literal.answerRefusal? second.answer).toList := by
  have hassumed : second.assumedFacts config = first.assumedFacts config :=
    congrArg Facts.replay hload
  obtain ⟨made, hchained⟩ :=
    Session.chain_chained (Session.load { config := config } first) clock
  obtain ⟨_, hany⟩ := Session.chain_chained (Session.load { config := config } second) clock'
  have hsteps := steps_solve hchained
  have hstopped : ((Session.load { config := config } first).chain clock).1 ≠ .timeLimit := by
    intro hlate
    rw [hsteps, hlate] at htime
    simp at htime
  have hstopped' : ((Session.load { config := config } second).chain clock').1 ≠ .timeLimit := by
    intro hlate
    rw [steps_solve hany, hlate] at htime'
    simp at htime'
  have hsame : ∀ count ≤ made,
      (first.assumedFacts config).passSteps (Rule.ofEntries second.entries) count =
        (first.assumedFacts config).passSteps (Rule.ofEntries first.entries) count := by
    intro count hcount
    apply hpasses
    rw [hsteps]
    refine List.Subset.trans (Facts.prefix_passSteps _ _ hcount).subset ?_
    intro step hstep
    simp [hstep]
  have hlearns : ∀ count < made,
      (Session.load { config := config } first).facts.LearnsAfter
        (Session.load { config := config } first).rules count ↔
      (Session.load { config := config } second).facts.LearnsAfter
        (Session.load { config := config } second).rules count := by
    intro count hcount
    simp only [facts_load, rules_load, hassumed, Facts.LearnsAfter, Facts.afterPasses,
      hsame count (Nat.le_of_lt hcount), hsame (count + 1) hcount]
  obtain ⟨hconfig, hinterrupt⟩ := Session.settings_eq_iff.mp <|
    (Session.settings_load { config := config } first).trans
      (Session.settings_load { config := config } second).symm
  obtain ⟨houtcome, hchained'⟩ := Session.chain_lockstep hchained hlearns (by rw [hconfig])
    hinterrupt hstopped hstopped'
  refine ⟨_, hsteps, ?_⟩
  rw [steps_solve hchained', hload, hassumed, hsame made (Nat.le_refl made), houtcome]

/-- With the same answer on top of that, they come to the same solution. -/
theorem solve_eq_of_lockstep {first second : RuleBase} {config : Config} {clock clock' : Clock}
    (hanswer : second.answer = first.answer)
    (hload : (∅ : Facts).loadSteps config second.entries =
      (∅ : Facts).loadSteps config first.entries)
    (hpasses : ∀ count, (first.assumedFacts config).passSteps (Rule.ofEntries first.entries) count ⊆
        (first.solve config clock).steps →
      (first.assumedFacts config).passSteps (Rule.ofEntries second.entries) count =
        (first.assumedFacts config).passSteps (Rule.ofEntries first.entries) count)
    (htime : .ended .timeLimit ∉ (first.solve config clock).steps)
    (htime' : .ended .timeLimit ∉ (second.solve config clock').steps) :
    second.solve config clock' = first.solve config clock := by
  obtain ⟨shared, hfirst, hsecond⟩ := solve_lockstep hload hpasses htime htime'
  rw [hanswer, ← hfirst] at hsecond
  exact solve_eq_of_steps (congrArg Text.trim hanswer) hsecond

end RuleBase

end ForwardChaining
