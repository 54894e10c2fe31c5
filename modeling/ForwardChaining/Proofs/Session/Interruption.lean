import ForwardChaining.Proofs.Session.Termination

namespace ForwardChaining.Session

/-- Terms under which nothing stops the chaining of a session but its own fixed point: more passes
    are allowed than it has atoms open, the clock stays within the time limit, and the interrupt
    lets every question pass. -/
structure Terms.Unlimited (terms : Terms) (session : Session) : Prop where
  passes : session.openAtoms.card < terms.config.passLimit.value
  time : ∀ check, terms.clock check ≤ terms.config.timeLimit.value
  interrupt : ∀ interrupt, terms.interrupt = some interrupt → interrupt.IsSilent

theorem Terms.Unlimited.outcome {terms : Terms} {session : Session}
    (h : terms.Unlimited session) : (session.chainUnder terms).1 = .fixedPoint := by
  let limited : Session := { session with config := terms.config, interrupt := terms.interrupt }
  have hopen : limited.openAtoms = session.openAtoms := openAtoms_of_account rfl
  have hremaining : limited.openAtoms.card < terms.config.passLimit.value := by
    rw [hopen]
    exact h.passes
  obtain ⟨made, final, hchain, _⟩ := @chainFrom_of_open_lt terms.clock
    terms.config.passLimit.value 0 limited hremaining (fun check _ _ => h.time check) h.interrupt
  unfold chainUnder chain
  rw [hchain]

/-- The session after chain calls made one after the other, each under its own terms. -/
def chainThrough (session : Session) (calls : List Terms) : Session :=
  calls.foldl (fun session terms => (session.chainUnder terms).2) session

/-- How each of the chain calls stops. -/
def outcomes (session : Session) : List Terms → List Outcome
  | [] => []
  | terms :: rest => (session.chainUnder terms).1 :: (session.chainUnder terms).2.outcomes rest

/-- Chain calls that stopped so have made the first so many passes of chaining from the session,
    and noted the steps of these passes and how each of the calls stopped. -/
structure MadePasses (session later : Session) (outcomes : List Outcome) (made : Nat) : Prop where
  facts : later.facts = session.facts.afterPasses session.rules made
  rules : later.rules = session.rules
  counters : later.counters = (session.account.afterPasses made).counters
  trace : ∃ noted, later.trace = session.trace ++ noted ∧
    noted.filter (·.isTurn) = session.facts.passSteps session.rules made ∧
    noted.filter (!·.isTurn) = outcomes.map .ended

namespace MadePasses

theorem refl (session : Session) : MadePasses session session [] 0 :=
  ⟨rfl, rfl, rfl, [], (List.append_nil _).symm, rfl, rfl⟩

theorem of_chained {session later : Session} {outcome : Outcome} {made : Nat}
    (h : Chained session later outcome made) : MadePasses session later [outcome] made := by
  refine ⟨h.facts, h.rules, h.counters,
    session.facts.passSteps session.rules made ++ [.ended outcome], ?_, ?_, ?_⟩
  · rw [h.trace, List.append_assoc]
  · have hturns := List.filter_eq_self.mpr fun step hstep =>
      @Facts.isTurn_of_mem_passSteps session.facts session.rules made step hstep
    rw [List.filter_append, hturns]
    simp [Step.isTurn]
  · have hturns : (session.facts.passSteps session.rules made).filter (!·.isTurn) = [] := by
      rw [List.filter_eq_nil_iff]
      intro step hstep
      simp [Facts.isTurn_of_mem_passSteps hstep]
    rw [List.filter_append, hturns]
    simp [Step.isTurn]

theorem trans {session middle later : Session} {first second : List Outcome} {made more : Nat}
    (h : MadePasses session middle first made) (h' : MadePasses middle later second more) :
    MadePasses session later (first ++ second) (made + more) := by
  obtain ⟨noted, htrace, hturns, hends⟩ := h.trace
  obtain ⟨noted', htrace', hturns', hends'⟩ := h'.trace
  refine ⟨?_, h'.rules.trans h.rules, ?_, noted ++ noted', ?_, ?_, ?_⟩
  · rw [h'.facts, h.facts, h.rules, Facts.afterPasses_add]
  · rw [h'.counters, ← Account.afterPasses_add, Account.counters_afterPasses,
      Account.counters_afterPasses, Account.facts_afterPasses, Account.rules_afterPasses,
      ← h.counters]
    change ((middle.facts.passSteps middle.rules more).foldl _ _) = _
    rw [h.facts, h.rules]
    rfl
  · rw [htrace', htrace, List.append_assoc]
  · rw [List.filter_append, hturns, hturns', h.facts, h.rules, Facts.passSteps_add]
  · rw [List.filter_append, hends, hends', List.map_append]

end MadePasses

/-- Calls that were all stopped early have between them made passes that each learnt something. -/
theorem chainThrough_madePasses {session : Session} {calls : List Terms}
    (hstopped : .fixedPoint ∉ session.outcomes calls) :
    ∃ made, MadePasses session (session.chainThrough calls) (session.outcomes calls) made ∧
      ∀ count < made, session.facts.LearnsAfter session.rules count := by
  induction calls generalizing session with
  | nil => exact ⟨0, .refl session, nofun⟩
  | cons terms rest ih =>
    have hfirst : (session.chainUnder terms).1 ≠ .fixedPoint := fun hfixed =>
      hstopped (hfixed ▸ List.mem_cons_self)
    have hrest : .fixedPoint ∉ (session.chainUnder terms).2.outcomes rest := fun hmem =>
      hstopped (List.mem_cons_of_mem _ hmem)
    obtain ⟨made, hchained⟩ := chainUnder_chained session terms
    obtain ⟨more, hmore, hlearns⟩ := ih hrest
    rw [hchained.facts, hchained.rules] at hlearns
    exact ⟨made + more, (MadePasses.of_chained hchained).trans hmore,
      Facts.learnsAfter_add (hchained.stops.learns hfirst) hlearns⟩

/-- Limits only cut chaining short, and it can be taken up again. A call that is stopped has made
    the first passes of the call that is not: its facts are the first of those that the other ends
    with, and it has noted the steps of these passes and then how it stopped. However the work is
    cut into calls that are stopped, for whatever reasons, an unlimited call after them ends with
    the facts and the counts of a single one, and all the calls between them note its steps. -/
theorem chainUnder_truncates_and_resumes {session : Session} {free : Terms}
    (hfree : free.Unlimited session) :
    let whole := (session.chainUnder free).2
    let steps := session.facts.passSteps session.rules
    ∃ total, (session.chainUnder free).1 = .fixedPoint ∧
      whole.counters.passes = session.counters.passes + total ∧
      whole.trace = session.trace ++ steps total ++ [.ended .fixedPoint] ∧
      (∀ step ∈ steps total, step.isTurn = true) ∧
      (∀ terms, (session.chainUnder terms).1 ≠ .fixedPoint →
        let stopped := (session.chainUnder terms).2
        ∃ made < total, stopped.counters.passes = session.counters.passes + made ∧
          stopped.facts.literals <+: whole.facts.literals ∧
          stopped.trace = session.trace ++ steps made ++ [.ended (session.chainUnder terms).1] ∧
          stopped.rules = session.rules ∧ stopped.config = terms.config) ∧
      ∀ calls, .fixedPoint ∉ session.outcomes calls →
        ∀ last : Terms, last.Unlimited (session.chainThrough calls) →
          let resumed := ((session.chainThrough calls).chainUnder last).2
          ((session.chainThrough calls).chainUnder last).1 = .fixedPoint ∧
            resumed.facts = whole.facts ∧ resumed.counters = whole.counters ∧
            ∃ noted, resumed.trace = session.trace ++ noted ∧
              noted.filter (·.isTurn) = steps total ∧
              noted.filter (!·.isTurn) =
                (session.outcomes calls ++ [Outcome.fixedPoint]).map .ended := by
  intro whole steps
  obtain ⟨total, hwhole⟩ := chainUnder_chained session free
  rw [hfree.outcome] at hwhole
  refine ⟨total, hfree.outcome, hwhole.passes, hwhole.trace,
    fun step => Facts.isTurn_of_mem_passSteps, ?_, ?_⟩
  · intro terms hstopped stopped
    obtain ⟨made, hchained⟩ := chainUnder_chained session terms
    have hfewer : made < total := hwhole.stops.lt_of_learns (hchained.stops.learns hstopped)
    refine ⟨made, hfewer, hchained.passes, ?_, hchained.trace, hchained.rules, config_chain _ _⟩
    rw [hchained.facts, hwhole.facts]
    exact session.facts.prefix_afterPasses session.rules (Nat.le_of_lt hfewer)
  · intro calls hstopped last hlast resumed
    obtain ⟨made, hmade, hlearns⟩ := chainThrough_madePasses hstopped
    obtain ⟨more, hmore⟩ := chainUnder_chained (session.chainThrough calls) last
    rw [hlast.outcome] at hmore
    have hstops := hmore.stops
    rw [hmade.facts, hmade.rules] at hstops
    -- However many passes the calls share out, the fixed point is found by the same one.
    have htotal : made + more = total :=
      (hstops.add hlearns).fixedPoint_unique hwhole.stops
    have hresumed := hmade.trans (.of_chained hmore)
    rw [htotal] at hresumed
    exact ⟨hlast.outcome, hresumed.facts.trans hwhole.facts.symm,
      hresumed.counters.trans hwhole.counters.symm, hresumed.trace⟩

/-- Chaining that takes three passes, cut short by a pass limit of zero, after one pass by the
    interrupt, and after another by the clock. The last rule is at odds with the facts all along. -/
theorem chainUnder_truncates_and_resumes_thrice :
    let session := (fresh {} none none).run
      [.readAssumption "A", .readRules ["B → C", "A → B", "A → ¬A"]]
    let free : Terms := ⟨{}, none, fun _ => 0⟩
    let calls : List Terms :=
      [⟨{ passLimit := ⟨"pass_limit", 1, maxCount, 0⟩ }, none, fun _ => 0⟩,
        ⟨{}, some (.after 1), fun _ => 0⟩,
        ⟨{ timeLimit := ⟨"time_limit", 0, maxDuration, 5⟩ }, none, fun check => 10 * check⟩]
    let resumed := ((session.chainThrough calls).chainUnder free).2
    session.outcomes calls = [.passLimit, .terminated, .timeLimit] ∧
      resumed.counters = ⟨3, 2, 3, 0⟩ ∧ resumed.counters = (session.chainUnder free).2.counters ∧
      resumed.facts = (session.chainUnder free).2.facts := by
  intro session free calls resumed
  have houtcomes : session.outcomes calls = [.passLimit, .terminated, .timeLimit] := by
    decide +kernel
  have hopen : session.openAtoms.card = 2 := by decide +kernel
  have hopen' : (session.chainThrough calls).openAtoms.card = 0 := by decide +kernel
  have hfree : free.Unlimited session :=
    ⟨hopen ▸ by decide, fun _ => Nat.zero_le _, nofun⟩
  have hfree' : free.Unlimited (session.chainThrough calls) :=
    ⟨hopen' ▸ by decide, fun _ => Nat.zero_le _, nofun⟩
  obtain ⟨_, _, _, _, _, _, hresumes⟩ := chainUnder_truncates_and_resumes hfree
  have hstopped : .fixedPoint ∉ session.outcomes calls := by
    rw [houtcomes]
    decide
  obtain ⟨_, hfacts, hcounters, _⟩ := hresumes calls hstopped free hfree'
  exact ⟨houtcomes, by decide +kernel, hcounters, hfacts⟩

end ForwardChaining.Session
