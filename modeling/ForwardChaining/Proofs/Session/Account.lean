import Mathlib.Logic.Relation
import ForwardChaining.Session

namespace ForwardChaining

/-- The literal that a step adds to the facts, for the steps that add one. -/
def Step.learnt? : Step → Option Literal
  | .assumed literal => some literal
  | .derived _ conclusion => some conclusion
  | _ => none

def Facts.after (facts : Facts) (step : Step) : Facts :=
  step.learnt?.elim facts facts.insert

/-- The facts that the steps of a trace add up to. -/
def Facts.replay (steps : List Step) : Facts :=
  steps.foldl Facts.after ∅

theorem Facts.prefix_insert (facts : Facts) (literal : Literal) :
    facts.literals <+: (facts.insert literal).literals := by
  cases hvalue : facts.valueOf literal.atom with
  | none =>
    rw [literals_insert_of_fresh hvalue]
    exact List.prefix_append _ _
  | some value =>
    have hsame : facts.insert literal = facts := insert_of_valued (by simp [hvalue])
    simp only [hsame, List.prefix_rfl]

theorem Facts.mem_literals_insert {facts : Facts} {literal other : Literal}
    (hmem : other ∈ (facts.insert literal).literals) :
    other ∈ facts.literals ∨ other = literal := by
  cases hvalue : facts.valueOf literal.atom with
  | none =>
    rw [literals_insert_of_fresh hvalue] at hmem
    simpa using hmem
  | some value =>
    rw [insert_of_valued (by simp [hvalue])] at hmem
    exact .inl hmem

theorem Facts.prefix_after (facts : Facts) (step : Step) :
    facts.literals <+: (facts.after step).literals := by
  unfold after
  cases step.learnt? with
  | none => exact List.prefix_rfl
  | some literal => exact facts.prefix_insert literal

def Counters.tally (counters : Counters) : Step → Counters
  | .derived _ _ => { counters with derivations := counters.derivations + 1 }
  | .contradiction _ _ _ _ => { counters with contradictions := counters.contradictions + 1 }
  | .skippedAssumption _ _ | .invalidRuleFormat _ | .invalidRule _ _ =>
    { counters with skipped := counters.skipped + 1 }
  | .assumed _ | .repeated _ | .invalidAnswer _ _ | .ended _ => counters

theorem Counters.passes_tally (counters : Counters) (step : Step) :
    (counters.tally step).passes = counters.passes := by
  cases step <;> rfl

/-- Some rule of the given kind was written so, concludes the literal and has a premise that is
    true on the facts. -/
def Rule.Fires (allowed : Rule → Prop) (facts : Facts) (source : String) (conclusion : Literal) :
    Prop :=
  ∃ rule, allowed rule ∧ rule.source = source ∧ rule.conclusion = conclusion ∧
    rule.premise.holds facts.valueOf = true

/-- Why a step can be taken on the facts before it, by the literals that may be assumed and the
    rules that may be used. A step that neither uses nor weighs a literal needs no reason. -/
def Step.JustifiedBy (assumed : Literal → Prop) (allowed : Rule → Prop) (facts : Facts) :
    Step → Prop
  | .assumed literal => assumed literal ∧ facts.valueOf literal.atom = none
  | .repeated literal => facts.valueOf.satisfies literal = true
  | .derived source conclusion =>
    facts.valueOf conclusion.atom = none ∧ Rule.Fires allowed facts source conclusion
  | .contradiction origin source suggested existing =>
    facts.valueOf suggested.atom = some existing ∧ existing ≠ suggested.polarity ∧
      (origin = .assumption → assumed suggested) ∧
      (origin = .rule → Rule.Fires allowed facts source suggested)
  | .skippedAssumption _ _ | .invalidRuleFormat _ | .invalidRule _ _ | .invalidAnswer _ _
  | .ended _ => True

theorem Rule.Fires.mono {allowed wider : Rule → Prop} {facts : Facts} {source : String}
    {conclusion : Literal} (h : Rule.Fires allowed facts source conclusion)
    (hwider : ∀ rule, allowed rule → wider rule) : Rule.Fires wider facts source conclusion := by
  obtain ⟨rule, hallowed, hrest⟩ := h
  exact ⟨rule, hwider rule hallowed, hrest⟩

theorem Step.JustifiedBy.mono {assumed assumed' : Literal → Prop} {allowed allowed' : Rule → Prop}
    {facts : Facts} {step : Step} (h : step.JustifiedBy assumed allowed facts)
    (hassumed : ∀ literal, assumed literal → assumed' literal)
    (hallowed : ∀ rule, allowed rule → allowed' rule) :
    step.JustifiedBy assumed' allowed' facts := by
  cases step with
  | assumed literal => exact ⟨hassumed literal h.1, h.2⟩
  | derived source conclusion => exact ⟨h.1, h.2.mono hallowed⟩
  | contradiction origin source suggested existing =>
    obtain ⟨hvalue, hopposed, hassumption, hrule⟩ := h
    exact ⟨hvalue, hopposed, fun horigin => hassumed suggested (hassumption horigin),
      fun horigin => (hrule horigin).mono hallowed⟩
  | repeated literal => exact h
  | skippedAssumption text error => exact h
  | invalidRuleFormat text => exact h
  | invalidRule text error => exact h
  | invalidAnswer text error => exact h
  | ended outcome => exact h

/-- What a session has to show for itself: all but its settings, its interrupt and its log. -/
structure Account where
  facts : Facts
  rules : List Rule
  trace : List Step
  counters : Counters
  observed : Option (List Step)

def Session.account (session : Session) : Account :=
  ⟨session.facts, session.rules, session.trace, session.counters, session.observed⟩

theorem Session.facts_account (session : Session) : session.account.facts = session.facts := rfl

theorem Session.trace_account (session : Session) : session.account.trace = session.trace := rfl

namespace Account

/-- The account once a step is noted with all that goes with it. -/
def take (account : Account) (step : Step) : Account where
  facts := account.facts.after step
  rules := account.rules
  trace := account.trace ++ [step]
  counters := account.counters.tally step
  observed := account.observed.map (· ++ [step])

def addRule (account : Account) (rule : Rule) : Account :=
  { account with rules := account.rules ++ [rule] }

def countPass (account : Account) : Account :=
  { account with counters := { account.counters with passes := account.counters.passes + 1 } }

/-- All that can happen to an account at once, when the given literals may be assumed. -/
inductive Move (assumed : Literal → Prop) : Account → Account → Prop where
  | take (account : Account) (step : Step)
      (hjustified : step.JustifiedBy assumed (· ∈ account.rules) account.facts) :
      Move assumed account (account.take step)
  | addRule (account : Account) (rule : Rule) (hparse : Rule.parse rule.source = .ok rule) :
      Move assumed account (account.addRule rule)
  | countPass (account : Account) : Move assumed account account.countPass

/-- What can come of an account in any number of moves. -/
abbrev Reaches (assumed : Literal → Prop) : Account → Account → Prop :=
  Relation.ReflTransGen (Move assumed)

theorem Move.mono {assumed wider : Literal → Prop} {account next : Account}
    (h : Move assumed account next) (hwider : ∀ literal, assumed literal → wider literal) :
    Move wider account next := by
  cases h with
  | take step hjustified => exact .take _ step (hjustified.mono hwider fun _ => id)
  | addRule rule hparse => exact .addRule _ rule hparse
  | countPass => exact .countPass _

theorem Reaches.mono {assumed wider : Literal → Prop} {account final : Account}
    (h : Reaches assumed account final) (hwider : ∀ literal, assumed literal → wider literal) :
    Reaches wider account final :=
  Relation.ReflTransGen.mono (fun _ _ hmove => hmove.mono hwider) _ _ h

/-- The later account has all that the earlier one has, in the same order and in front. -/
structure Extends (earlier later : Account) : Prop where
  facts : earlier.facts.literals <+: later.facts.literals
  rules : earlier.rules <+: later.rules
  trace : earlier.trace <+: later.trace

theorem Extends.refl (account : Account) : Extends account account :=
  ⟨List.prefix_rfl, List.prefix_rfl, List.prefix_rfl⟩

theorem Extends.trans {first second third : Account} (h : Extends first second)
    (h' : Extends second third) : Extends first third :=
  ⟨h.facts.trans h'.facts, h.rules.trans h'.rules, h.trace.trans h'.trace⟩

theorem Move.extends {assumed : Literal → Prop} {account next : Account}
    (h : Move assumed account next) : Extends account next := by
  cases h with
  | take step hjustified =>
    exact ⟨account.facts.prefix_after step, List.prefix_rfl, List.prefix_append _ _⟩
  | addRule rule hparse => exact ⟨List.prefix_rfl, List.prefix_append _ _, List.prefix_rfl⟩
  | countPass => exact ⟨List.prefix_rfl, List.prefix_rfl, List.prefix_rfl⟩

/-- Nothing learnt, read or noted is ever taken back. -/
theorem Reaches.extends {assumed : Literal → Prop} {account final : Account}
    (h : Reaches assumed account final) : Extends account final := by
  induction h with
  | refl => exact .refl _
  | tail _ hmove ih => exact ih.trans hmove.extends

end Account

end ForwardChaining
