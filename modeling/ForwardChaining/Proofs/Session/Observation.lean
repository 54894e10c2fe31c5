import ForwardChaining.Proofs.Session.Operation

namespace ForwardChaining

/-- The observer is told of the steps that are noted, and of nothing else. -/
theorem Account.Reaches.exists_noted {assumed : Literal → Prop} {account final : Account}
    (h : Reaches assumed account final) :
    ∃ noted, final.trace = account.trace ++ noted ∧
      final.observed = account.observed.map (· ++ noted) := by
  induction h with
  | refl => exact ⟨[], by simp⟩
  | tail _ hmove ih =>
    obtain ⟨noted, htrace, hobserved⟩ := ih
    cases hmove with
    | take step hjustified =>
      refine ⟨noted ++ [step], ?_, ?_⟩
      · simp only [take, htrace, List.append_assoc]
      · simp only [take, hobserved, Option.map_map, Function.comp_def, List.append_assoc]
    | addRule rule hparse => exact ⟨noted, htrace, hobserved⟩
    | countPass => exact ⟨noted, htrace, hobserved⟩

namespace Session

/-- A session as it would be without its observer. -/
def unobserved (session : Session) : Session :=
  { session with observed := none }

@[simp] theorem facts_unobserved (session : Session) :
    session.unobserved.facts = session.facts := rfl

theorem eq_of_unobserved {first second : Session}
    (h : first.unobserved = second.unobserved) :
    first = { second with observed := first.observed } := by
  cases first
  cases second
  simpa [unobserved] using h

theorem unobserved_foldl {α : Type} {turn : Session → α → Session}
    (hturn : ∀ session item, (turn session item).unobserved = turn session.unobserved item)
    (items : List α) (session : Session) :
    (items.foldl turn session).unobserved = items.foldl turn session.unobserved := by
  induction items generalizing session with
  | nil => rfl
  | cons item rest ih => rw [List.foldl_cons, ih, hturn, List.foldl_cons]

theorem unobserved_assume (session : Session) (text : String) (literal : Literal) :
    (session.assume text literal).unobserved = session.unobserved.assume text literal := by
  unfold assume
  rw [facts_unobserved]
  cases session.facts.standing literal with
  | fresh => rfl
  | known =>
    by_cases hnoted : session.config.traceDuplicates.value = true
    · simp only [unobserved, record, hnoted]
      rfl
    · simp only [unobserved, record, hnoted]
      rfl
  | opposed existing => rfl

theorem unobserved_readAssumption (session : Session) (entry : String) :
    (session.readAssumption entry).unobserved = session.unobserved.readAssumption entry := by
  unfold readAssumption
  dsimp only
  split
  · rfl
  · cases Literal.parse (Text.trim entry) with
    | ok literal => exact unobserved_assume _ _ literal
    | error error => rfl

theorem unobserved_readRule (session : Session) (text : String) :
    (session.readRule text).unobserved = session.unobserved.readRule text := by
  unfold readRule
  dsimp only
  cases Rule.parse text with
  | ok rule => rfl
  | error error => rfl

theorem unobserved_applyRule (session : Session) (rule : Rule) :
    (session.applyRule rule).unobserved = session.unobserved.applyRule rule := by
  unfold applyRule
  rw [facts_unobserved]
  split
  · cases session.facts.standing rule.conclusion <;> rfl
  · rfl

theorem unobserved_pass (session : Session) (number : Nat) :
    (session.pass number).unobserved = session.unobserved.pass number :=
  unobserved_foldl unobserved_applyRule session.rules (session.beginPass number)

theorem askInterrupt_unobserved (session : Session) :
    session.unobserved.askInterrupt =
      (session.askInterrupt.1, session.askInterrupt.2.unobserved) := by
  obtain ⟨config, facts, rules, trace, counters, interrupt, observed, log⟩ := session
  cases interrupt <;> rfl

theorem chainFrom_unobserved (clock : Clock) (remaining passes : Nat) (session : Session) :
    chainFrom clock remaining passes session.unobserved =
      ((chainFrom clock remaining passes session).1, (chainFrom clock remaining passes session).2.1,
        (chainFrom clock remaining passes session).2.2.unobserved) := by
  induction remaining generalizing passes session with
  | zero => rfl
  | succ remaining ih =>
    rw [chainFrom, chainFrom, askInterrupt_unobserved]
    change (if session.config.timeLimit.value < clock passes then _ else _) = _
    split
    · rfl
    · generalize session.askInterrupt = asked
      obtain ⟨stop, asked⟩ := asked
      cases stop with
      | true => rfl
      | false =>
        simp only [← unobserved_pass, facts_unobserved]
        split
        · exact ih (passes + 1) (asked.pass (passes + 1))
        · rfl

theorem unobserved_chain (session : Session) (clock : Clock) :
    (session.chain clock).2.unobserved = (session.unobserved.chain clock).2 := by
  unfold chain
  rw [chainFrom_unobserved]
  rfl

theorem unobserved_answer (session : Session) (text : String) :
    (session.answer text).2.unobserved = (session.unobserved.answer text).2 := by
  unfold answer
  dsimp only
  cases Literal.parse (Text.trim text) <;> rfl

theorem unobserved_perform (session : Session) (operation : Operation) :
    (session.perform operation).unobserved = session.unobserved.perform operation := by
  cases operation with
  | readAssumption entry => exact unobserved_readAssumption session entry
  | readAssumptions entries => exact unobserved_foldl unobserved_readAssumption _ session
  | readRule text => exact unobserved_readRule session text
  | readRules entries => exact unobserved_foldl unobserved_readRule _ session
  | chain clock => exact unobserved_chain session clock
  | answer text => exact unobserved_answer session text
  | reportOn text => rfl
  | configure config => rfl
  | interruptBy interrupt => rfl

theorem unobserved_run (session : Session) (operations : List Operation) :
    (session.run operations).unobserved = session.unobserved.run operations :=
  unobserved_foldl unobserved_perform operations session

/-- An observer that comes in at some point is told of exactly what is noted from then on, in order,
    and nothing else is different for it. -/
theorem run_observe (session : Session) (operations : List Operation) :
    ∃ noted, (session.run operations).trace = session.trace ++ noted ∧
      session.observe.run operations =
        { session.run operations with observed := some noted } := by
  obtain ⟨noted, htrace, hobserved⟩ := (session.observe.run_reaches operations).exists_noted
  have hsame : (session.observe.run operations).unobserved =
      (session.run operations).unobserved :=
    (unobserved_run _ operations).trans (unobserved_run session operations).symm
  have htold : (session.observe.run operations).observed = some noted := hobserved
  -- The run with the observer tells what is noted, the one without it has the same trace.
  refine ⟨noted, (congrArg Session.trace hsame).symm.trans htrace, ?_⟩
  rw [eq_of_unobserved hsame, htold]

end Session

end ForwardChaining
