import ForwardChaining.Proofs.Session.Pass

namespace ForwardChaining

namespace Rule

/-- The premise is true on the facts and the atom of the conclusion has the opposite value. -/
def IsViolated (rule : Rule) (facts : Facts) : Prop :=
  rule.premise.holds facts.valueOf = true ∧
    facts.valueOf rule.conclusion.atom = some (!rule.conclusion.polarity)

instance (rule : Rule) (facts : Facts) : Decidable (rule.IsViolated facts) :=
  inferInstanceAs (Decidable (_ ∧ _))

/-- A contradiction for each rule that is violated, in the order of the rules. -/
def violations (rules : List Rule) (facts : Facts) : List Step :=
  (rules.filter (·.IsViolated facts)).map fun rule =>
    .contradiction .rule rule.source rule.conclusion (!rule.conclusion.polarity)

/-- A rule that has nothing to learn has a step to take only if it is violated. -/
theorem stepOn?_of_valued {rule : Rule} {facts : Facts}
    (hvalued : rule.premise.holds facts.valueOf = true →
      facts.valueOf rule.conclusion.atom ≠ none) :
    rule.stepOn? facts = if rule.IsViolated facts then
      some (.contradiction .rule rule.source rule.conclusion (!rule.conclusion.polarity))
      else none := by
  by_cases hviolated : rule.IsViolated facts
  · rw [if_pos hviolated]
    exact stepOn?_eq_some_iff.mpr (.contradiction hviolated.1 hviolated.2 (by simp))
  · rw [if_neg hviolated, Option.eq_none_iff_forall_ne_some]
    intro step hstep
    cases stepOn?_eq_some_iff.mp hstep with
    | derived hpremise hfresh => exact hvalued hpremise hfresh
    | contradiction hpremise hvalue hopposed =>
      rw [Bool.eq_not_of_ne hopposed] at hvalue
      exact hviolated ⟨hpremise, hvalue⟩

theorem filterMap_stepOn?_of_saturated {rules : List Rule} {facts : Facts}
    (h : facts.Saturated rules) : rules.filterMap (·.stepOn? facts) = violations rules facts := by
  induction rules with
  | nil => rfl
  | cons rule rest ih =>
    have hrest : facts.Saturated rest := fun other hother => h other (List.mem_cons_of_mem _ hother)
    have hfirst := stepOn?_of_valued (h rule List.mem_cons_self)
    have ih := ih hrest
    by_cases hviolated : rule.IsViolated facts
    · rw [if_pos hviolated] at hfirst
      simp_all [violations]
    · rw [if_neg hviolated] at hfirst
      simp_all [violations]

theorem violations_eq_nil_iff {rules : List Rule} {facts : Facts} (h : facts.Saturated rules) :
    violations rules facts = [] ↔
      ∀ rule ∈ rules, rule.premise.holds facts.valueOf = true →
        facts.valueOf.satisfies rule.conclusion = true := by
  simp only [violations, List.map_eq_nil_iff, List.filter_eq_nil_iff, decide_eq_true_eq]
  constructor
  · intro hnone rule hrule hpremise
    obtain ⟨value, hvalue⟩ := Option.ne_none_iff_exists'.mp (h rule hrule hpremise)
    have hvalue' : value ≠ !rule.conclusion.polarity := fun hopposite =>
      hnone rule hrule ⟨hpremise, hopposite ▸ hvalue⟩
    rw [Valuation.satisfies, hvalue]
    cases value <;> simp_all
  · rintro hall rule hrule ⟨hpremise, hopposite⟩
    have hsatisfied := hall rule hrule hpremise
    rw [Valuation.satisfies, hopposite] at hsatisfied
    simp at hsatisfied

end Rule

namespace Session

/-- Terms under which a first pass is made. -/
structure Terms.AllowsPass (terms : Terms) : Prop where
  limit : 1 ≤ terms.config.passLimit.value
  time : terms.clock 0 ≤ terms.config.timeLimit.value
  interrupt : ∀ interrupt, terms.interrupt = some interrupt →
    interrupt.answer interrupt.asked = false

/-- A session with nothing more to learn is found at its fixed point by the first pass it makes. -/
theorem chain_of_quiet {session : Session} {clock : Clock}
    (hlimit : 1 ≤ session.config.passLimit.value)
    (htime : clock 0 ≤ session.config.timeLimit.value) (hask : session.askInterrupt.1 = false)
    (hquiet : ¬ session.facts.LearnsAfter session.rules 0) :
    (session.chain clock).1 = .fixedPoint := by
  obtain ⟨remaining, hremaining⟩ := Nat.exists_eq_add_of_le' hlimit
  change (chainFrom clock session.config.passLimit.value 0 session).1 = .fixedPoint
  rw [hremaining, chainFrom_succ htime, hask, if_neg Bool.false_ne_true, if_neg hquiet]

theorem chainUnder_of_quiet {session : Session} {terms : Terms} (hterms : terms.AllowsPass)
    (hquiet : ¬ session.facts.LearnsAfter session.rules 0) :
    (session.chainUnder terms).1 = .fixedPoint ∧
      Chained session (session.chainUnder terms).2 .fixedPoint 1 := by
  have hask : ({ session with
      config := terms.config, interrupt := terms.interrupt } : Session).askInterrupt.1 = false := by
    unfold askInterrupt
    cases hsome : terms.interrupt with
    | none => rfl
    | some interrupt => exact hterms.interrupt interrupt hsome
  have houtcome : (session.chainUnder terms).1 = .fixedPoint :=
    chain_of_quiet hterms.limit hterms.time hask hquiet
  obtain ⟨made, hchained⟩ := chainUnder_chained session terms
  rw [houtcome] at hchained
  obtain ⟨last, rfl, _, hlearns⟩ := hchained.stops
  cases last with
  | zero => exact ⟨houtcome, hchained⟩
  | succ last => exact absurd (hlearns 0 (Nat.succ_pos last)) hquiet

/-- A fixed point is reported as it is. The last pass notes a contradiction for each rule that the
    final facts violate, in the order of the rules, and nothing else, so that the trace closes with
    these and the end. There are none exactly if the facts satisfy the conclusion of every rule with
    a true premise. Chaining again makes one more pass, which notes the same and changes nothing. -/
theorem chain_fixedPoint_violations {session : Session} {clock : Clock}
    (hfixed : (session.chain clock).1 = .fixedPoint) :
    let final := (session.chain clock).2
    let violations := Rule.violations session.rules final.facts
    final.rules = session.rules ∧
      (∃ made, final.counters.passes = session.counters.passes + (made + 1) ∧
        (session.facts.afterPasses session.rules made).turnSteps session.rules = violations ∧
        final.trace = session.trace ++ session.facts.passSteps session.rules made ++ violations ++
          [.ended .fixedPoint]) ∧
      (violations = [] ↔ ∀ rule ∈ session.rules, rule.premise.holds final.facts.valueOf = true →
        final.facts.valueOf.satisfies rule.conclusion = true) ∧
      ∀ terms : Terms, terms.AllowsPass →
        let again := final.chainUnder terms
        again.1 = .fixedPoint ∧ again.2.counters.passes = final.counters.passes + 1 ∧
          again.2.facts = final.facts ∧ again.2.rules = final.rules ∧
          again.2.trace = final.trace ++ violations ++ [.ended .fixedPoint] := by
  intro final violations
  obtain ⟨made, hchained, hquiet, hfacts, hsaturated, hsteps⟩ := chain_last_pass hfixed
  rw [Rule.filterMap_stepOn?_of_saturated hsaturated] at hsteps
  have hrules : final.rules = session.rules := hchained.rules
  have htrace : final.trace = session.trace ++ session.facts.passSteps session.rules made ++
      violations ++ [.ended .fixedPoint] := by
    rw [hchained.trace, Facts.passSteps_succ, ← hfacts, hsteps, ← List.append_assoc]
  refine ⟨hrules, ⟨made, hchained.passes, hfacts ▸ hsteps, htrace⟩,
    Rule.violations_eq_nil_iff hsaturated, ?_⟩
  intro terms hterms again
  have hstill : ¬ final.facts.LearnsAfter final.rules 0 := by
    rw [hfacts, hrules, Facts.learnsAfter_afterPasses]
    exact hquiet
  have hsame : final.facts.afterPasses final.rules 1 = final.facts :=
    Facts.eq_of_prefix_of_size_le (final.facts.prefix_afterAll _) (Nat.not_lt.mp hstill)
  obtain ⟨houtcome, hagain⟩ := chainUnder_of_quiet hterms hstill
  refine ⟨houtcome, hagain.passes, hagain.facts.trans hsame, hagain.rules, ?_⟩
  rw [hagain.trace, Facts.passSteps_one, hrules, hsteps]

/-- Two rules that go against each other over `p`, the second of them violated in each of two
    passes. Chaining again, under a limit of one pass, notes the violation a third time. -/
theorem chain_fixedPoint_violations_repeated :
    let session := (fresh {} none none).run
      [.readAssumption "p", .readRules ["p ∧ ¬q → r", "r → ¬p"]]
    let final := (session.chain fun _ => 0).2
    let violation : Step := .contradiction .rule "r → ¬p" ⟨"p", false⟩ true
    let terms : Terms :=
      ⟨{ passLimit := ⟨"pass_limit", 1, maxCount, 1⟩ }, some (.after 1), fun _ => 0⟩
    final.trace = [.assumed ⟨"p", true⟩, .derived "p ∧ ¬q → r" ⟨"r", true⟩, violation, violation,
        .ended .fixedPoint] ∧
      (final.chainUnder terms).2.trace = final.trace ++ [violation] ++ [.ended .fixedPoint] := by
  intro session final violation terms
  have hfixed : (session.chain fun _ => 0).1 = .fixedPoint := by decide +kernel
  have hviolations : Rule.violations session.rules final.facts = [violation] := by decide +kernel
  have hterms : terms.AllowsPass := by
    refine ⟨by decide, by decide, fun interrupt hsome => ?_⟩
    cases hsome
    rfl
  obtain ⟨_, _, _, hagain⟩ := chain_fixedPoint_violations hfixed
  obtain ⟨_, _, _, _, htrace⟩ := hagain terms hterms
  rw [hviolations] at htrace
  exact ⟨by decide +kernel, htrace⟩

end Session

end ForwardChaining
