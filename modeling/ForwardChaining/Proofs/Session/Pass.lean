import ForwardChaining.Proofs.Session.Chaining
import ForwardChaining.Proofs.Session.Operation

namespace ForwardChaining

/-- Every rule with a true premise has a conclusion on an atom that has a value. -/
def Facts.Saturated (facts : Facts) (rules : List Rule) : Prop :=
  ∀ rule ∈ rules, rule.premise.holds facts.valueOf = true →
    facts.valueOf rule.conclusion.atom ≠ none

theorem Facts.eq_of_prefix_of_size_le {earlier later : Facts}
    (hfront : earlier.literals <+: later.literals) (hsize : later.size ≤ earlier.size) :
    later = earlier := by
  have hliterals : earlier.literals = later.literals := hfront.eq_of_length_le hsize
  cases earlier
  cases later
  simp_all

theorem Rule.learnt_of_stepOn? {rule : Rule} {facts : Facts} {step : Step} {literal : Literal}
    (hstep : rule.stepOn? facts = some step) (hlearnt : step.learnt? = some literal) :
    literal = rule.conclusion := by
  cases stepOn?_eq_some_iff.mp hstep with
  | derived =>
    cases hlearnt
    rfl
  | contradiction => cases hlearnt

/-- A rule that adds nothing to the facts has a false premise or a valued conclusion. -/
theorem Rule.valued_of_stepOn?_keeps {rule : Rule} {facts : Facts}
    (hkeeps : (rule.stepOn? facts).elim facts facts.after = facts)
    (hpremise : rule.premise.holds facts.valueOf = true) :
    facts.valueOf rule.conclusion.atom ≠ none := by
  intro hnone
  rw [stepOn?_eq_some_iff.mpr (.derived hpremise hnone)] at hkeeps
  have hinsert : (facts.insert rule.conclusion).literals = facts.literals :=
    congrArg Facts.literals hkeeps
  rw [Facts.literals_insert_of_fresh hnone] at hinsert
  simpa using congrArg List.length hinsert

/-- A pass that learns nothing gives each rule its turn on the same facts, so that its steps are
    those each of the rules takes on these facts. -/
theorem Facts.turnSteps_of_quiet {facts : Facts} {rules : List Rule}
    (hquiet : (facts.afterAll (facts.turnSteps rules)).size ≤ facts.size) :
    facts.Saturated rules ∧ facts.turnSteps rules = rules.filterMap (·.stepOn? facts) := by
  induction rules with
  | nil => exact ⟨nofun, rfl⟩
  | cons rule rest ih =>
    rw [Facts.turnSteps_cons, Facts.afterAll_append, Facts.afterAll_toList] at hquiet
    -- The facts after the first turn lie between two that agree.
    have hkeeps : (rule.stepOn? facts).elim facts facts.after = facts := by
      have hbefore := facts.prefix_afterAll (rule.stepOn? facts).toList
      rw [Facts.afterAll_toList] at hbefore
      have hafter := Facts.prefix_afterAll ((rule.stepOn? facts).elim facts facts.after)
        (((rule.stepOn? facts).elim facts facts.after).turnSteps rest)
      exact Facts.eq_of_prefix_of_size_le hbefore (Nat.le_trans hafter.length_le hquiet)
    rw [hkeeps] at hquiet
    obtain ⟨hsaturated, hsteps⟩ := ih hquiet
    refine ⟨?_, ?_⟩
    · intro other hother hpremise
      rcases List.mem_cons.mp hother with rfl | hlater
      · exact Rule.valued_of_stepOn?_keeps hkeeps hpremise
      · exact hsaturated other hlater hpremise
    · rw [Facts.turnSteps_cons, hkeeps, hsteps]
      cases hstep : rule.stepOn? facts <;> simp [hstep]

namespace Session

theorem facts_applyRule (session : Session) (rule : Rule) :
    (session.applyRule rule).facts =
      (rule.stepOn? session.facts).elim session.facts session.facts.after := by
  change (session.applyRule rule).account.facts = _
  rw [account_applyRule]
  cases rule.stepOn? session.facts <;> rfl

theorem prefix_foldl_applyRule (session : Session) (rules : List Rule) :
    session.facts.literals <+: (rules.foldl applyRule session).facts.literals := by
  have hfacts : (rules.foldl applyRule session).facts =
      session.facts.afterAll (session.facts.turnSteps rules) :=
    (congrArg Account.facts (account_foldl_applyRule session rules)).trans
      (session.account.facts_takeAll _)
  rw [hfacts]
  exact session.facts.prefix_afterAll _

/-- What the rules learn is among their conclusions. -/
theorem mem_literals_foldl_applyRule {session : Session} {rules : List Rule} {literal : Literal}
    (hmem : literal ∈ (rules.foldl applyRule session).facts.literals) :
    literal ∈ session.facts.literals ∨ ∃ rule ∈ rules, rule.conclusion = literal := by
  induction rules generalizing session with
  | nil => exact .inl hmem
  | cons rule rest ih =>
    rcases ih hmem with hfirst | ⟨later, hlater, hconclusion⟩
    · rw [facts_applyRule] at hfirst
      cases hstep : rule.stepOn? session.facts with
      | none =>
        rw [hstep] at hfirst
        exact .inl hfirst
      | some step =>
        rw [hstep] at hfirst
        cases hlearnt : step.learnt? with
        | none =>
          simp only [Option.elim_some, Facts.after, hlearnt, Option.elim_none] at hfirst
          exact .inl hfirst
        | some learnt =>
          simp only [Option.elim_some, Facts.after, hlearnt] at hfirst
          rcases Facts.mem_literals_insert hfirst with hold | rfl
          · exact .inl hold
          · exact .inr ⟨rule, List.mem_cons_self, (Rule.learnt_of_stepOn? hstep hlearnt).symm⟩
    · exact .inr ⟨later, List.mem_cons_of_mem _ hlater, hconclusion⟩

/-- Chaining that reaches a fixed point makes a last pass that learns nothing, in which each rule
    takes its step on the final facts. -/
theorem chain_last_pass {session : Session} {clock : Clock}
    (hfixed : (session.chain clock).1 = .fixedPoint) :
    ∃ made, Chained session (session.chain clock).2 .fixedPoint (made + 1) ∧
      ¬ session.facts.LearnsAfter session.rules made ∧
      (session.chain clock).2.facts = session.facts.afterPasses session.rules made ∧
      (session.chain clock).2.facts.Saturated session.rules ∧
      (session.chain clock).2.facts.turnSteps session.rules =
        session.rules.filterMap (·.stepOn? (session.chain clock).2.facts) := by
  obtain ⟨total, hchained⟩ := chain_chained session clock
  rw [hfixed] at hchained
  obtain ⟨made, rfl, hquiet, _⟩ := hchained.stops
  have hlast : session.facts.afterPasses session.rules (made + 1) =
      session.facts.afterPasses session.rules made :=
    Facts.eq_of_prefix_of_size_le
      (session.facts.prefix_afterPasses session.rules (Nat.le_succ made)) (Nat.not_lt.mp hquiet)
  have hfinal : (session.chain clock).2.facts = session.facts.afterPasses session.rules made :=
    hchained.facts.trans hlast
  have hturns : ((session.facts.afterPasses session.rules made).afterPasses session.rules 1).size ≤
      (session.facts.afterPasses session.rules made).size := by
    rw [Facts.afterPasses_add]
    exact Nat.not_lt.mp hquiet
  obtain ⟨hsaturated, hsteps⟩ := Facts.turnSteps_of_quiet hturns
  rw [hfinal]
  exact ⟨made, hchained, hquiet, rfl, hsaturated, hsteps⟩

/-- At a fixed point the rules are as they were, the facts are saturated, and the trace closes with
    what each rule has to note on these facts. -/
theorem chain_of_fixedPoint {session : Session} {clock : Clock}
    (hfixed : (session.chain clock).1 = .fixedPoint) :
    (session.chain clock).2.rules = session.rules ∧
      (session.chain clock).2.facts.Saturated session.rules ∧
      ∃ earlier, (session.chain clock).2.trace =
        earlier ++ session.rules.filterMap (·.stepOn? (session.chain clock).2.facts) ++
          [.ended .fixedPoint] := by
  obtain ⟨made, hchained, _, hfinal, hsaturated, hsteps⟩ := chain_last_pass hfixed
  refine ⟨hchained.rules, hsaturated,
    session.trace ++ session.facts.passSteps session.rules made, ?_⟩
  rw [hchained.trace, Facts.passSteps_succ, ← hfinal, hsteps, ← List.append_assoc]

end Session

end ForwardChaining
