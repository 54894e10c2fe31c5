import Mathlib.Tactic.ByContra
import ForwardChaining.Proofs.Session.Steps

namespace ForwardChaining

/-- Whether a step is one that a rule takes in its turn. -/
def Step.isTurn : Step → Bool
  | .derived _ _ | .contradiction .rule _ _ _ => true
  | _ => false

theorem Rule.isTurn_of_stepOn? {rule : Rule} {facts : Facts} {step : Step}
    (hstep : rule.stepOn? facts = some step) : step.isTurn = true := by
  cases stepOn?_eq_some_iff.mp hstep with
  | derived | contradiction => rfl

namespace Facts

/-- The steps of one pass: every rule in order takes its step, if it has one to take, on what the
    rules before it have left. -/
def turnSteps (facts : Facts) (rules : List Rule) : List Step :=
  facts.stepsBy Rule.stepOn? rules

theorem turnSteps_cons (facts : Facts) (rule : Rule) (rest : List Rule) :
    facts.turnSteps (rule :: rest) = (rule.stepOn? facts).toList ++
      ((rule.stepOn? facts).elim facts facts.after).turnSteps rest :=
  stepsBy_cons facts rule rest

/-- The steps of the first so many passes through the rules. -/
def passSteps (facts : Facts) (rules : List Rule) : Nat → List Step
  | 0 => []
  | count + 1 =>
    facts.passSteps rules count ++ (facts.afterAll (facts.passSteps rules count)).turnSteps rules

/-- The facts after the first so many passes through the rules. -/
def afterPasses (facts : Facts) (rules : List Rule) (count : Nat) : Facts :=
  facts.afterAll (facts.passSteps rules count)

theorem passSteps_succ (facts : Facts) (rules : List Rule) (count : Nat) :
    facts.passSteps rules (count + 1) =
      facts.passSteps rules count ++ (facts.afterPasses rules count).turnSteps rules := rfl

theorem passSteps_one (facts : Facts) (rules : List Rule) :
    facts.passSteps rules 1 = facts.turnSteps rules := rfl

theorem mem_passSteps {facts : Facts} {rules : List Rule} {count : Nat} {step : Step}
    (hmem : step ∈ facts.passSteps rules count) :
    ∃ rule ∈ rules, ∃ earlier, rule.stepOn? earlier = some step := by
  induction count with
  | zero => cases hmem
  | succ count ih =>
    rcases List.mem_append.mp hmem with hbefore | hlast
    · exact ih hbefore
    · exact mem_stepsBy hlast

/-- A pass notes what rules do in their turns and nothing else. -/
theorem isTurn_of_mem_passSteps {facts : Facts} {rules : List Rule} {count : Nat} {step : Step}
    (hmem : step ∈ facts.passSteps rules count) : step.isTurn = true := by
  obtain ⟨rule, _, earlier, hstep⟩ := mem_passSteps hmem
  exact Rule.isTurn_of_stepOn? hstep

theorem passSteps_add (facts : Facts) (rules : List Rule) (first second : Nat) :
    facts.passSteps rules (first + second) =
      facts.passSteps rules first ++ (facts.afterPasses rules first).passSteps rules second := by
  induction second with
  | zero => simp [passSteps]
  | succ second ih =>
    rw [← Nat.add_assoc, passSteps_succ, passSteps_succ, afterPasses, ih, List.append_assoc,
      afterAll_append]
    rfl

theorem prefix_passSteps (facts : Facts) (rules : List Rule) {first second : Nat}
    (h : first ≤ second) : facts.passSteps rules first <+: facts.passSteps rules second := by
  obtain ⟨more, rfl⟩ := Nat.exists_eq_add_of_le h
  rw [passSteps_add]
  exact List.prefix_append _ _

theorem afterPasses_add (facts : Facts) (rules : List Rule) (first second : Nat) :
    (facts.afterPasses rules first).afterPasses rules second =
      facts.afterPasses rules (first + second) := by
  rw [afterPasses, afterPasses, afterPasses, passSteps_add, afterAll_append]
  rfl

theorem prefix_afterPasses (facts : Facts) (rules : List Rule) {first second : Nat}
    (h : first ≤ second) :
    (facts.afterPasses rules first).literals <+: (facts.afterPasses rules second).literals := by
  obtain ⟨more, rfl⟩ := Nat.exists_eq_add_of_le h
  rw [← afterPasses_add]
  exact prefix_afterAll _ _

/-- The pass after the first so many learns something. -/
def LearnsAfter (facts : Facts) (rules : List Rule) (count : Nat) : Prop :=
  (facts.afterPasses rules count).size < (facts.afterPasses rules (count + 1)).size

instance (facts : Facts) (rules : List Rule) (count : Nat) :
    Decidable (facts.LearnsAfter rules count) :=
  inferInstanceAs (Decidable (_ < _))

theorem learnsAfter_afterPasses (facts : Facts) (rules : List Rule) (first second : Nat) :
    (facts.afterPasses rules first).LearnsAfter rules second ↔
      facts.LearnsAfter rules (first + second) := by
  rw [LearnsAfter, LearnsAfter, afterPasses_add, afterPasses_add, Nat.add_assoc]

/-- The passes that chaining makes before it stops so: each of them learns something, but for the
    last one at a fixed point, which does not. -/
def StopsAfter (facts : Facts) (rules : List Rule) : Outcome → Nat → Prop
  | .fixedPoint, made => ∃ last, made = last + 1 ∧ ¬ facts.LearnsAfter rules last ∧
    ∀ count < last, facts.LearnsAfter rules count
  | _, made => ∀ count < made, facts.LearnsAfter rules count

theorem learnsAfter_add {facts : Facts} {rules : List Rule} {first second : Nat}
    (hfirst : ∀ count < first, facts.LearnsAfter rules count)
    (hsecond : ∀ count < second, (facts.afterPasses rules first).LearnsAfter rules count) :
    ∀ count < first + second, facts.LearnsAfter rules count := by
  intro count hcount
  by_cases hearly : count < first
  · exact hfirst count hearly
  · have hlater := hsecond (count - first) (by omega)
    rwa [learnsAfter_afterPasses, Nat.add_sub_cancel' (by omega)] at hlater

/-- Passes that learn something come before those that chaining makes from where they lead. -/
theorem StopsAfter.add {facts : Facts} {rules : List Rule} {outcome : Outcome} {first made : Nat}
    (h : (facts.afterPasses rules first).StopsAfter rules outcome made)
    (hfirst : ∀ count < first, facts.LearnsAfter rules count) :
    facts.StopsAfter rules outcome (first + made) := by
  cases outcome with
  | fixedPoint =>
    obtain ⟨last, rfl, hquiet, hbefore⟩ := h
    rw [learnsAfter_afterPasses] at hquiet
    exact ⟨first + last, rfl, hquiet, learnsAfter_add hfirst hbefore⟩
  | passLimit => exact learnsAfter_add hfirst h
  | timeLimit => exact learnsAfter_add hfirst h
  | terminated => exact learnsAfter_add hfirst h

theorem StopsAfter.learns {facts : Facts} {rules : List Rule} {outcome : Outcome} {made : Nat}
    (h : facts.StopsAfter rules outcome made) (houtcome : outcome ≠ .fixedPoint) :
    ∀ count < made, facts.LearnsAfter rules count := by
  cases outcome with
  | fixedPoint => exact absurd rfl houtcome
  | passLimit => exact h
  | timeLimit => exact h
  | terminated => exact h

/-- Passes that each learn something are fewer than those up to the fixed point. -/
theorem StopsAfter.lt_of_learns {facts : Facts} {rules : List Rule} {total made : Nat}
    (h : facts.StopsAfter rules .fixedPoint total)
    (hlearns : ∀ count < made, facts.LearnsAfter rules count) : made < total := by
  obtain ⟨last, rfl, hquiet, _⟩ := h
  by_contra hmany
  exact hquiet (hlearns last (by omega))

theorem StopsAfter.fixedPoint_unique {facts : Facts} {rules : List Rule} {total total' : Nat}
    (h : facts.StopsAfter rules .fixedPoint total)
    (h' : facts.StopsAfter rules .fixedPoint total') : total = total' := by
  obtain ⟨last, rfl, _, hlearns⟩ := id h
  obtain ⟨last', rfl, _, hlearns'⟩ := id h'
  have hle := h'.lt_of_learns hlearns
  have hle' := h.lt_of_learns hlearns'
  omega

end Facts

namespace Account

def addPasses (account : Account) (count : Nat) : Account :=
  { account with counters := { account.counters with passes := account.counters.passes + count } }

theorem addPasses_addPasses (account : Account) (first second : Nat) :
    (account.addPasses first).addPasses second = account.addPasses (first + second) := by
  simp only [addPasses, Nat.add_assoc]

theorem takeAll_addPasses (account : Account) (count : Nat) (steps : List Step) :
    (account.addPasses count).takeAll steps = (account.takeAll steps).addPasses count := by
  induction steps generalizing account with
  | nil => rfl
  | cons step rest ih =>
    have hfirst : (account.addPasses count).take step = (account.take step).addPasses count := by
      cases step <;> rfl
    exact (congrArg (·.takeAll rest) hfirst).trans (ih (account.take step))

/-- The account after so many passes through its rules. -/
def afterPasses (account : Account) (count : Nat) : Account :=
  (account.addPasses count).takeAll (account.facts.passSteps account.rules count)

@[simp] theorem facts_afterPasses (account : Account) (count : Nat) :
    (account.afterPasses count).facts = account.facts.afterPasses account.rules count :=
  facts_takeAll _ _

@[simp] theorem rules_afterPasses (account : Account) (count : Nat) :
    (account.afterPasses count).rules = account.rules :=
  rules_takeAll _ _

@[simp] theorem trace_afterPasses (account : Account) (count : Nat) :
    (account.afterPasses count).trace =
      account.trace ++ account.facts.passSteps account.rules count :=
  trace_takeAll _ _

theorem counters_afterPasses (account : Account) (count : Nat) :
    (account.afterPasses count).counters =
      (account.facts.passSteps account.rules count).foldl Counters.tally
        { account.counters with passes := account.counters.passes + count } :=
  counters_takeAll _ _

theorem passes_afterPasses (account : Account) (count : Nat) :
    (account.afterPasses count).counters.passes = account.counters.passes + count := by
  have hkept : ∀ (steps : List Step) (counters : Counters),
      (steps.foldl Counters.tally counters).passes = counters.passes := by
    intro steps
    induction steps with
    | nil => exact fun _ => rfl
    | cons step rest ih =>
      intro counters
      exact (ih (counters.tally step)).trans (counters.passes_tally step)
  rw [counters_afterPasses, hkept]

theorem afterPasses_add (account : Account) (first second : Nat) :
    (account.afterPasses first).afterPasses second = account.afterPasses (first + second) := by
  rw [afterPasses, facts_afterPasses, rules_afterPasses, takeAll_addPasses, afterPasses,
    ← takeAll_append, ← Facts.passSteps_add, ← takeAll_addPasses, addPasses_addPasses]
  rfl

end Account

namespace Session

theorem account_foldl_applyRule (session : Session) (rules : List Rule) :
    (rules.foldl applyRule session).account =
      session.account.takeAll (session.facts.turnSteps rules) :=
  @account_foldl _ _ (fun _ => Rule.stepOn?) config_applyRule account_applyRule rules session

theorem account_pass (session : Session) (number : Nat) :
    (session.pass number).account = session.account.afterPasses 1 :=
  account_foldl_applyRule (session.beginPass number) session.rules

theorem facts_pass (session : Session) (number : Nat) :
    (session.pass number).facts = session.facts.afterPasses session.rules 1 :=
  (congrArg Account.facts (session.account_pass number)).trans
    (session.account.facts_afterPasses 1)

/-- A round of the loop within the time limit: the interrupt is asked, and what it lets pass goes on
    as long as the passes learn something. -/
theorem chainFrom_succ {clock : Clock} {remaining passes : Nat} {session : Session}
    (htime : clock passes ≤ session.config.timeLimit.value) :
    chainFrom clock (remaining + 1) passes session =
      if session.askInterrupt.1 then (.terminated, passes, session.askInterrupt.2)
      else if session.facts.LearnsAfter session.rules 0 then
        chainFrom clock remaining (passes + 1) (session.askInterrupt.2.pass (passes + 1))
      else (.fixedPoint, passes + 1, session.askInterrupt.2.pass (passes + 1)) := by
  have haccount := account_askInterrupt session
  rw [chainFrom, if_neg (Nat.not_lt.mpr htime)]
  generalize session.askInterrupt = asked at haccount ⊢
  obtain ⟨stop, asked⟩ := asked
  have hfacts : asked.facts = session.facts := congrArg Account.facts haccount
  have hrules : asked.rules = session.rules := congrArg Account.rules haccount
  cases stop with
  | true => rfl
  | false =>
    have hgrows : asked.facts.size < (asked.pass (passes + 1)).facts.size ↔
        session.facts.LearnsAfter session.rules 0 := by
      rw [facts_pass, hfacts, hrules]
      rfl
    simp only [hgrows, Bool.false_eq_true, ↓reduceIte]

theorem clock_le_of_chainFrom {clock : Clock} {remaining passes : Nat} {session : Session}
    (houtcome : (chainFrom clock (remaining + 1) passes session).1 ≠ .timeLimit) :
    clock passes ≤ session.config.timeLimit.value := by
  by_contra hlate
  rw [chainFrom, if_pos (Nat.not_le.mp hlate)] at houtcome
  exact houtcome rfl

/-- What the loop leaves behind are passes on the account, as many as it counts, and how many there
    are fits the way it stops. -/
theorem chainFrom_afterPasses (clock : Clock) (remaining passes : Nat) (session : Session) :
    ∃ made, (chainFrom clock remaining passes session).2.1 = passes + made ∧
      session.facts.StopsAfter session.rules (chainFrom clock remaining passes session).1 made ∧
      (chainFrom clock remaining passes session).2.2.account =
        session.account.afterPasses made := by
  induction remaining generalizing passes session with
  | zero => exact ⟨0, rfl, nofun, rfl⟩
  | succ remaining ih =>
    by_cases htime : clock passes ≤ session.config.timeLimit.value
    · have haccount := account_askInterrupt session
      have hnext := account_pass session.askInterrupt.2 (passes + 1)
      rw [haccount] at hnext
      rw [chainFrom_succ htime]
      by_cases hstop : session.askInterrupt.1 = true
      · rw [if_pos hstop]
        exact ⟨0, rfl, nofun, haccount⟩
      · rw [if_neg hstop]
        by_cases hlearns : session.facts.LearnsAfter session.rules 0
        · rw [if_pos hlearns]
          obtain ⟨made, hmade, hstops, hfinal⟩ :=
            ih (passes + 1) (session.askInterrupt.2.pass (passes + 1))
          have hfacts : (session.askInterrupt.2.pass (passes + 1)).facts =
              session.facts.afterPasses session.rules 1 :=
            (congrArg Account.facts hnext).trans (session.account.facts_afterPasses 1)
          have hrules : (session.askInterrupt.2.pass (passes + 1)).rules = session.rules :=
            (congrArg Account.rules hnext).trans (session.account.rules_afterPasses 1)
          rw [hfacts, hrules] at hstops
          have hfirst : ∀ count < 1, session.facts.LearnsAfter session.rules count := by
            intro count hcount
            obtain rfl : count = 0 := by omega
            exact hlearns
          refine ⟨1 + made, hmade.trans (Nat.add_assoc _ _ _), hstops.add hfirst, ?_⟩
          rw [hfinal, hnext, Account.afterPasses_add]
        · rw [if_neg hlearns]
          exact ⟨1, rfl, ⟨0, rfl, hlearns, nofun⟩, hnext⟩
    · rw [chainFrom, if_pos (Nat.not_le.mp htime)]
      exact ⟨0, rfl, nofun, rfl⟩

theorem askInterrupt_congr {first second : Session} (h : first.interrupt = second.interrupt) :
    first.askInterrupt.1 = second.askInterrupt.1 ∧
      first.askInterrupt.2.interrupt = second.askInterrupt.2.interrupt := by
  unfold askInterrupt
  rw [h]
  cases hinterrupt : second.interrupt with
  | none => exact ⟨rfl, h⟩
  | some interrupt => exact ⟨rfl, rfl⟩

/-- Loops that learn something in the same passes, as far as the first of them gets, stop in the
    same way after as many passes under the same limit and interrupt, as long as neither is stopped
    by its clock. -/
theorem chainFrom_lockstep {clock clock' : Clock} {remaining passes : Nat}
    {first second : Session}
    (hlearns : ∀ count, passes + count < (chainFrom clock remaining passes first).2.1 →
      (first.facts.LearnsAfter first.rules count ↔ second.facts.LearnsAfter second.rules count))
    (hinterrupt : first.interrupt = second.interrupt)
    (htime : (chainFrom clock remaining passes first).1 ≠ .timeLimit)
    (htime' : (chainFrom clock' remaining passes second).1 ≠ .timeLimit) :
    (chainFrom clock remaining passes first).1 = (chainFrom clock' remaining passes second).1 ∧
      (chainFrom clock remaining passes first).2.1 =
        (chainFrom clock' remaining passes second).2.1 := by
  induction remaining generalizing passes first second with
  | zero => exact ⟨rfl, rfl⟩
  | succ remaining ih =>
    obtain ⟨hanswer, hasked⟩ := askInterrupt_congr hinterrupt
    have hclock := clock_le_of_chainFrom htime
    have hclock' := clock_le_of_chainFrom htime'
    rw [chainFrom_succ hclock] at hlearns htime ⊢
    rw [chainFrom_succ hclock', ← hanswer] at htime' ⊢
    by_cases hstop : first.askInterrupt.1 = true
    · simp only [if_pos hstop, and_self]
    · simp only [if_neg hstop] at hlearns htime htime' ⊢
      by_cases hgrows : first.facts.LearnsAfter first.rules 0
      · rw [if_pos hgrows] at hlearns htime ⊢
        obtain ⟨made, hmade, _⟩ := chainFrom_afterPasses clock remaining (passes + 1)
          (first.askInterrupt.2.pass (passes + 1))
        rw [if_pos ((hlearns 0 (by omega)).mp hgrows)] at htime' ⊢
        refine ih ?_ (by rw [interrupt_pass, interrupt_pass, hasked]) htime htime'
        intro count hcount
        -- Passes are counted anew by the rest of the loop, so each comes one later in the whole.
        have hshift : ∀ session : Session,
            (session.askInterrupt.2.pass (passes + 1)).facts.LearnsAfter
              (session.askInterrupt.2.pass (passes + 1)).rules count ↔
              session.facts.LearnsAfter session.rules (1 + count) := by
          intro session
          have haccount := account_askInterrupt session
          have hfacts : session.askInterrupt.2.facts = session.facts :=
            congrArg Account.facts haccount
          have hrules : session.askInterrupt.2.rules = session.rules :=
            congrArg Account.rules haccount
          rw [facts_pass, rules_pass, hfacts, hrules, Facts.learnsAfter_afterPasses]
        rw [hshift, hshift]
        exact hlearns (1 + count) (by omega)
      · rw [if_neg hgrows] at hlearns
        have hquiet : ¬ second.facts.LearnsAfter second.rules 0 := fun h =>
          hgrows ((hlearns 0 (Nat.lt_succ_self passes)).mpr h)
        rw [if_neg hgrows, if_neg hquiet]
        exact ⟨rfl, rfl⟩

/-- All that a chain call does: so many passes, as fits the way it stops, and the step that says
    how it stopped. -/
structure Chained (session later : Session) (outcome : Outcome) (made : Nat) : Prop where
  stops : session.facts.StopsAfter session.rules outcome made
  account : later.account = (session.account.afterPasses made).take (.ended outcome)

namespace Chained

variable {session later : Session} {outcome : Outcome} {made : Nat}
  (h : Chained session later outcome made)

include h

theorem facts : later.facts = session.facts.afterPasses session.rules made :=
  (congrArg Account.facts h.account).trans (session.account.facts_afterPasses made)

theorem rules : later.rules = session.rules :=
  (congrArg Account.rules h.account).trans (session.account.rules_afterPasses made)

theorem trace : later.trace =
    session.trace ++ session.facts.passSteps session.rules made ++ [.ended outcome] := by
  have hpasses := session.account.trace_afterPasses made
  have hended : later.trace = (session.account.afterPasses made).trace ++ [.ended outcome] :=
    congrArg Account.trace h.account
  rw [hended, hpasses]
  rfl

theorem counters : later.counters = (session.account.afterPasses made).counters :=
  congrArg Account.counters h.account

theorem passes : later.counters.passes = session.counters.passes + made :=
  (congrArg Counters.passes h.counters).trans (session.account.passes_afterPasses made)

end Chained

theorem chain_chained (session : Session) (clock : Clock) :
    ∃ made, Chained session (session.chain clock).2 (session.chain clock).1 made := by
  obtain ⟨made, _, hstops, haccount⟩ :=
    chainFrom_afterPasses clock session.config.passLimit.value 0 session
  exact ⟨made, hstops, congrArg (·.take (.ended (session.chain clock).1)) haccount⟩

/-- A chain call that learns something in the same passes as another, as far as that one got,
    makes as many passes under the same limit and interrupt, as long as neither is stopped by its
    clock. -/
theorem chain_lockstep {clock clock' : Clock} {first second : Session} {made : Nat}
    (hmade : Chained first (first.chain clock).2 (first.chain clock).1 made)
    (hlearns : ∀ count < made, first.facts.LearnsAfter first.rules count ↔
      second.facts.LearnsAfter second.rules count)
    (hlimit : first.config.passLimit.value = second.config.passLimit.value)
    (hinterrupt : first.interrupt = second.interrupt)
    (htime : (first.chain clock).1 ≠ .timeLimit) (htime' : (second.chain clock').1 ≠ .timeLimit) :
    (first.chain clock).1 = (second.chain clock').1 ∧
      Chained second (second.chain clock').2 (second.chain clock').1 made := by
  obtain ⟨total, htotal, _, haccount⟩ :=
    chainFrom_afterPasses clock first.config.passLimit.value 0 first
  obtain ⟨total', htotal', hstops', haccount'⟩ :=
    chainFrom_afterPasses clock' second.config.passLimit.value 0 second
  -- The counter tells the passes made, so there is one number only that they can be.
  have hpasses : (first.chain clock).2.counters.passes = first.counters.passes + total :=
    (congrArg (fun account : Account => account.counters.passes) haccount).trans
      (first.account.passes_afterPasses total)
  obtain rfl : made = total := by
    rw [hmade.passes] at hpasses
    omega
  have hsteps : ∀ count, 0 + count < (chainFrom clock first.config.passLimit.value 0 first).2.1 →
      (first.facts.LearnsAfter first.rules count ↔
        second.facts.LearnsAfter second.rules count) := by
    intro count hcount
    exact hlearns count (by omega)
  obtain ⟨houtcome, hequal⟩ :
      (chainFrom clock first.config.passLimit.value 0 first).1 =
        (chainFrom clock' second.config.passLimit.value 0 second).1 ∧
      (chainFrom clock first.config.passLimit.value 0 first).2.1 =
        (chainFrom clock' second.config.passLimit.value 0 second).2.1 := by
    change (chainFrom clock' second.config.passLimit.value 0 second).1 ≠ .timeLimit at htime'
    rw [← hlimit] at htime' ⊢
    exact chainFrom_lockstep hsteps hinterrupt htime htime'
  obtain rfl : made = total' := by omega
  exact ⟨houtcome, hstops', congrArg (·.take (.ended (second.chain clock').1)) haccount'⟩

@[simp] theorem config_chain (session : Session) (clock : Clock) :
    (session.chain clock).2.config = session.config := by
  refine @chainFrom_preserves (fun later => later.config = session.config) ?_ ?_ clock
    session.config.passLimit.value 0 session rfl
  · intro later hlater
    exact (config_askInterrupt later).trans hlater
  · intro later number hlater
    exact (config_pass later number).trans hlater

/-- What a chain call is made under. -/
structure Terms where
  config : Config
  interrupt : Option Interrupt
  clock : Clock

/-- Chains under the given terms, whatever the session had before. -/
def chainUnder (session : Session) (terms : Terms) : Outcome × Session :=
  { session with config := terms.config, interrupt := terms.interrupt }.chain terms.clock

theorem chainUnder_chained (session : Session) (terms : Terms) :
    ∃ made, Chained session (session.chainUnder terms).2 (session.chainUnder terms).1 made := by
  obtain ⟨made, hstops, haccount⟩ := chain_chained
    { session with config := terms.config, interrupt := terms.interrupt } terms.clock
  exact ⟨made, hstops, haccount⟩

end Session

end ForwardChaining
