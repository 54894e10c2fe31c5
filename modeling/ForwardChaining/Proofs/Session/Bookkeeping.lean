import ForwardChaining.Proofs.Session.Justification
import ForwardChaining.Proofs.Session.LeastModel
import ForwardChaining.Proofs.Session.Observation
import ForwardChaining.Proofs.Session.Solving

namespace ForwardChaining

namespace Step

def isAssumed : Step → Bool
  | .assumed _ => true
  | _ => false

def isDerived : Step → Bool
  | .derived _ _ => true
  | _ => false

def isEnded : Step → Bool
  | .ended _ => true
  | _ => false

theorem isEnded_of_isTurn {step : Step} (h : step.isTurn = true) : step.isEnded = false := by
  cases step with
  | ended outcome => cases h
  | _ => rfl

theorem isEnded_of_isRefusal {step : Step} (h : step.isRefusal = true) :
    step.isEnded = false := by
  cases step with
  | ended outcome => cases h
  | _ => rfl

theorem countP_isEnded_eq_zero {steps : List Step}
    (h : ∀ step ∈ steps, step.isEnded = false) : steps.countP isEnded = 0 := by
  rw [List.countP_eq_zero]
  intro step hstep
  simp [h step hstep]

/-- The literals that steps learn are those assumed and those derived. -/
theorem length_filterMap_learnt? (steps : List Step) :
    (steps.filterMap learnt?).length = steps.countP isAssumed + steps.countP isDerived := by
  induction steps with
  | nil => rfl
  | cons step rest ih =>
    rw [List.filterMap_cons, List.countP_cons, List.countP_cons]
    cases step <;> simp [learnt?, isAssumed, isDerived, ih]
    · omega
    · omega

end Step

theorem Literal.isEnded_of_entryStep? {config : Config} {entry : String} {facts : Facts}
    {step : Step} (hstep : entryStep? config entry facts = some step) : step.isEnded = false := by
  unfold entryStep? at hstep
  grind [Step.isEnded]

theorem Literal.isEnded_of_answerRefusal? {answer : String} {step : Step}
    (hrefusal : answerRefusal? answer = some step) : step.isEnded = false := by
  obtain ⟨error, _, rfl⟩ := answerRefusal?_eq_some_iff.mp hrefusal
  rfl

/-- Steps are tallied one by one, each in the counter of its kind. -/
theorem Counters.foldl_tally (counters : Counters) (steps : List Step) :
    steps.foldl tally counters =
      { passes := counters.passes
        derivations := counters.derivations + steps.countP Step.isDerived
        contradictions := counters.contradictions + steps.countP Step.isContradiction
        skipped := counters.skipped + steps.countP Step.isRefusal } := by
  induction steps generalizing counters with
  | nil => rfl
  | cons step rest ih =>
    rw [List.foldl_cons, ih, List.countP_cons, List.countP_cons, List.countP_cons]
    cases step <;>
      simp [tally, Step.isDerived, Step.isContradiction, Step.isRefusal, Nat.add_assoc,
        Nat.add_comm 1]

namespace Facts

theorem size_insert_le (facts : Facts) (literal : Literal) :
    (facts.insert literal).size ≤ facts.size + 1 := by
  cases hvalue : facts.valueOf literal.atom with
  | none => simp [size, literals_insert_of_fresh hvalue]
  | some value => simp [insert_of_valued (by simp [hvalue] : facts.valueOf literal.atom ≠ none)]

/-- Rules in their turns learn a literal with every derivation at most. -/
theorem size_afterAll_le {facts : Facts} {steps : List Step}
    (hturns : ∀ step ∈ steps, step.isTurn = true) :
    (facts.afterAll steps).size ≤ facts.size + steps.countP Step.isDerived := by
  induction steps generalizing facts with
  | nil => exact Nat.le_refl _
  | cons step rest ih =>
    obtain ⟨hturn, hlater⟩ := List.forall_mem_cons.mp hturns
    cases step with
    | derived source conclusion =>
      calc ((facts.insert conclusion).afterAll rest).size
          ≤ (facts.insert conclusion).size + rest.countP Step.isDerived := ih hlater
        _ ≤ facts.size + 1 + rest.countP Step.isDerived :=
          Nat.add_le_add_right (facts.size_insert_le conclusion) _
        _ = facts.size + (Step.derived source conclusion :: rest).countP Step.isDerived := by
          rw [List.countP_cons_of_pos rfl]
          omega
    | contradiction origin source suggested existing => exact ih hlater
    | _ => cases hturn

theorem add_le_size_afterPasses {facts : Facts} {rules : List Rule} {made : Nat}
    (hlearns : ∀ count < made, facts.LearnsAfter rules count) :
    facts.size + made ≤ (facts.afterPasses rules made).size := by
  induction made with
  | zero => exact Nat.le_refl _
  | succ made ih =>
    have hbefore := ih fun count hcount => hlearns count (Nat.lt_succ_of_lt hcount)
    have hlast : (facts.afterPasses rules made).size < (facts.afterPasses rules (made + 1)).size :=
      hlearns made (Nat.lt_succ_self made)
    omega

/-- Every pass that learns something derives something. -/
theorem le_countP_isDerived {facts : Facts} {rules : List Rule} {made : Nat}
    (hlearns : ∀ count < made, facts.LearnsAfter rules count) :
    made ≤ (facts.passSteps rules made).countP Step.isDerived := by
  have hgrown := add_le_size_afterPasses hlearns
  have hderived : (facts.afterPasses rules made).size ≤ _ :=
    size_afterAll_le fun _ hstep => isTurn_of_mem_passSteps hstep
  omega

/-- The passes of a chain call are at most its derivations, and one more for the last pass at a
    fixed point. -/
theorem StopsAfter.le_count {facts : Facts} {rules : List Rule} {outcome : Outcome} {made : Nat}
    (h : facts.StopsAfter rules outcome made) :
    made ≤ (facts.passSteps rules made ++ [Step.ended outcome]).countP Step.isDerived +
      (facts.passSteps rules made ++ [Step.ended outcome]).count (Step.ended .fixedPoint) := by
  by_cases houtcome : outcome = .fixedPoint
  · subst houtcome
    obtain ⟨last, rfl, _, hlearns⟩ := h
    -- The last pass need not derive anything: the step that closes it makes up for it.
    have hderived := le_countP_isDerived hlearns
    have hmore : (facts.passSteps rules last).countP Step.isDerived ≤
        (facts.passSteps rules (last + 1)).countP Step.isDerived :=
      (facts.prefix_passSteps rules (Nat.le_succ last)).countP_le
    simp only [List.countP_append, List.count_append, List.count_singleton_self]
    omega
  · have hderived := le_countP_isDerived (h.learns houtcome)
    rw [List.countP_append]
    omega

end Facts

def Operation.isChain : Operation → Bool
  | .chain _ => true
  | _ => false

/-- Calls, so many of them to chain, lead from one account to the other by these passes, steps and
    rules. Each of those to chain says once how it stopped, and every pass is made up for by a
    derivation or by the step that says that nothing was left to derive. -/
structure Account.Entered (account later : Account) (chains made : Nat) (steps : List Step)
    (rules : List Rule) : Prop where
  account : later = ((account.addPasses made).takeAll steps).addRules rules
  ended : steps.countP Step.isEnded = chains
  passes : made ≤ steps.countP Step.isDerived + steps.count (.ended .fixedPoint)

namespace Account.Entered

variable {account later final : Account} {chains chains' made made' : Nat}
  {steps steps' : List Step} {rules rules' : List Rule}

theorem trans (h : account.Entered later chains made steps rules)
    (h' : later.Entered final chains' made' steps' rules') :
    account.Entered final (chains + chains') (made + made') (steps ++ steps')
      (rules ++ rules') where
  account := by
    have hpasses : (((account.addPasses made).takeAll steps).addRules rules).addPasses made' =
        ((account.addPasses (made + made')).takeAll steps).addRules rules := by
      rw [takeAll_addPasses, takeAll_addPasses, ← addPasses_addPasses]
      rfl
    rw [h'.account, h.account, hpasses, takeAll_addRules, ← takeAll_append, addRules_addRules]
  ended := by rw [List.countP_append, h.ended, h'.ended]
  passes := by
    have hfirst := h.passes
    have hsecond := h'.passes
    rw [List.countP_append, List.count_append]
    omega

/-- A call other than to chain takes steps and adds rules, and leaves the passes alone. -/
theorem of_takeAll (haccount : later = (account.takeAll steps).addRules rules)
    (hsteps : ∀ step ∈ steps, step.isEnded = false) :
    account.Entered later 0 0 steps rules where
  account := haccount
  ended := Step.countP_isEnded_eq_zero hsteps
  passes := Nat.zero_le _

theorem refl (account : Account) : account.Entered account 0 0 [] [] :=
  .of_takeAll account.addRules_nil.symm nofun

theorem trace (h : account.Entered later chains made steps rules) :
    later.trace = account.trace ++ steps :=
  (congrArg Account.trace h.account).trans (trace_takeAll _ steps)

theorem counters (h : account.Entered later chains made steps rules) :
    later.counters =
      { passes := account.counters.passes + made
        derivations := account.counters.derivations + steps.countP Step.isDerived
        contradictions := account.counters.contradictions + steps.countP Step.isContradiction
        skipped := account.counters.skipped + steps.countP Step.isRefusal } := by
  have htallied : later.counters =
      steps.foldl Counters.tally (account.addPasses made).counters :=
    (congrArg Account.counters h.account).trans (counters_takeAll _ steps)
  rw [htallied, Counters.foldl_tally]
  rfl

end Account.Entered

namespace Session

theorem chain_entered (session : Session) (clock : Clock) :
    ∃ made steps, session.account.Entered (session.chain clock).2.account 1 made steps [] := by
  obtain ⟨made, hchained⟩ := chain_chained session clock
  refine ⟨made, session.facts.passSteps session.rules made ++ [.ended (session.chain clock).1],
    ?_, ?_, hchained.stops.le_count⟩
  · rw [Account.takeAll_append, Account.addRules_nil]
    exact hchained.account
  · have hnone : (session.facts.passSteps session.rules made).countP Step.isEnded = 0 :=
      Step.countP_isEnded_eq_zero fun _ hstep =>
        Step.isEnded_of_isTurn (Facts.isTurn_of_mem_passSteps hstep)
    rw [List.countP_append, hnone]
    rfl

theorem perform_entered (session : Session) (operation : Operation) :
    ∃ made steps, session.account.Entered (session.perform operation).account
      ([operation].countP Operation.isChain) made steps operation.rules := by
  cases operation with
  | readAssumption entry =>
    refine ⟨0, (Literal.entryStep? session.config entry session.facts).toList, .of_takeAll ?_ ?_⟩
    · refine (account_readAssumption session entry).trans ?_
      cases Literal.entryStep? session.config entry session.facts <;>
        exact (Account.addRules_nil _).symm
    · intro step hstep
      exact Literal.isEnded_of_entryStep? (Option.mem_toList.mp hstep)
  | readAssumptions entries =>
    refine ⟨0, _, .of_takeAll ((account_readAssumptions session entries).trans
      (Account.addRules_nil _).symm) ?_⟩
    intro step hstep
    obtain ⟨entry, _, earlier, hentry⟩ := Facts.mem_stepsBy hstep
    exact Literal.isEnded_of_entryStep? hentry
  | readRule text =>
    refine ⟨0, _, .of_takeAll (account_readRule session text) ?_⟩
    intro step hstep
    exact Step.isEnded_of_isRefusal (Rule.isRefusal_of_refusal? (Option.mem_toList.mp hstep))
  | readRules entries =>
    refine ⟨0, _, .of_takeAll (account_readRules session entries) ?_⟩
    intro step hstep
    obtain ⟨text, _, hrefusal⟩ := List.mem_filterMap.mp hstep
    exact Step.isEnded_of_isRefusal (Rule.isRefusal_of_refusal? hrefusal)
  | chain clock => exact chain_entered session clock
  | answer text =>
    refine ⟨0, _, .of_takeAll ((account_answer session text).trans
      (Account.addRules_nil _).symm) ?_⟩
    intro step hstep
    exact Literal.isEnded_of_answerRefusal? (Option.mem_toList.mp hstep)
  | reportOn text => exact ⟨0, [], .refl _⟩
  | configure config => exact ⟨0, [], .refl _⟩
  | interruptBy interrupt => exact ⟨0, [], .refl _⟩

theorem run_entered (session : Session) (operations : List Operation) :
    ∃ made steps, session.account.Entered (session.run operations).account
      (operations.countP Operation.isChain) made steps (operations.flatMap Operation.rules) := by
  induction operations generalizing session with
  | nil => exact ⟨0, [], .refl _⟩
  | cons operation rest ih =>
    obtain ⟨made, steps, hfirst⟩ := perform_entered session operation
    obtain ⟨made', steps', hrest⟩ := ih (session.perform operation)
    have hboth := hfirst.trans hrest
    rw [← List.countP_append] at hboth
    exact ⟨made + made', steps ++ steps', hboth⟩

/-- The counters and the facts are what the steps of the trace add up to, after so many calls to
    chain. -/
structure Balanced (session : Session) (chains : Nat) : Prop where
  derivations : session.counters.derivations = session.trace.countP Step.isDerived
  contradictions : session.counters.contradictions = session.trace.countP Step.isContradiction
  skipped : session.counters.skipped = session.trace.countP Step.isRefusal
  facts : session.facts.size =
    session.trace.countP Step.isAssumed + session.counters.derivations
  ended : session.trace.countP Step.isEnded = chains
  passes : session.counters.passes ≤
    session.counters.derivations + session.trace.count (.ended .fixedPoint)

theorem run_balanced (config : Config) (interrupt : Option Interrupt)
    (observed : Option (List Step)) (operations : List Operation) :
    ((fresh config interrupt observed).run operations).Balanced
      (operations.countP Operation.isChain) := by
  obtain ⟨made, steps, hentered⟩ := run_entered (fresh config interrupt observed) operations
  have hliterals := (run_grounded config interrupt observed operations).literals
  generalize (fresh config interrupt observed).run operations = session at hentered hliterals ⊢
  have htrace : session.trace = steps := hentered.trace
  have hcounters : session.counters =
      { passes := made
        derivations := steps.countP Step.isDerived
        contradictions := steps.countP Step.isContradiction
        skipped := steps.countP Step.isRefusal } := by
    refine hentered.counters.trans ?_
    simp [fresh, account]
  -- No literal is learnt twice, so that the facts are as many as the steps that learn one.
  have hsize := (congrArg List.length hliterals).trans (Step.length_filterMap_learnt? _)
  rw [trace_account, htrace] at hsize
  exact {
    derivations := by rw [hcounters, htrace]
    contradictions := by rw [hcounters, htrace]
    skipped := by rw [hcounters, htrace]
    facts := by
      rw [hcounters, htrace]
      exact hsize
    ended := by
      rw [htrace]
      exact hentered.ended
    passes := by
      rw [hcounters, htrace]
      exact hentered.passes }

/-- Counters, facts, trace and observer agree whatever is done with a session: each counter is the
    number of the steps of its kind, nothing is taken back from one point to a later one, and an
    observer that comes in at that point is told of exactly what is noted from then on. -/
theorem run_counters_agree (config : Config) (interrupt : Option Interrupt)
    (observed : Option (List Step)) (earlier later : List Operation) :
    let middle := (fresh config interrupt observed).run earlier
    let final := middle.run later
    final.Balanced ((earlier ++ later).countP Operation.isChain) ∧
      middle.account.Extends final.account ∧
      ∃ noted, final.trace = middle.trace ++ noted ∧
        middle.observe.run later = { final with observed := some noted } := by
  intro middle final
  have hbalanced := run_balanced config interrupt observed (earlier ++ later)
  rw [run, List.foldl_append] at hbalanced
  exact ⟨hbalanced, (middle.run_reaches later).extends, middle.run_observe later⟩

end Session

end ForwardChaining
