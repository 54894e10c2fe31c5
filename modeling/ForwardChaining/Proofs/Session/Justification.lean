import ForwardChaining.Proofs.Session.Operation

namespace ForwardChaining

/-- A step that can be checked from its own text on the facts before it: a rule it names is one
    that the text spells. -/
abbrev Step.Checks (facts : Facts) (step : Step) : Prop :=
  step.JustifiedBy (fun _ => True) (fun rule => Rule.parse rule.source = .ok rule) facts

/-- Steps each of which has its reason in the facts that the steps before it add up to. -/
def Step.AllJustifiedBy (assumed : Literal → Prop) (allowed : Rule → Prop) (steps : List Step) :
    Prop :=
  ∀ before step after, steps = before ++ step :: after →
    step.JustifiedBy assumed allowed (Facts.replay before)

theorem Facts.replay_append_singleton (steps : List Step) (step : Step) :
    Facts.replay (steps ++ [step]) = (Facts.replay steps).after step := by
  rw [Facts.replay, List.foldl_append]
  rfl

namespace Step.AllJustifiedBy

theorem nil (assumed : Literal → Prop) (allowed : Rule → Prop) :
    AllJustifiedBy assumed allowed [] := by
  intro before step after hsplit
  simp at hsplit

theorem mono {assumed assumed' : Literal → Prop} {allowed allowed' : Rule → Prop}
    {steps : List Step} (h : AllJustifiedBy assumed allowed steps)
    (hassumed : ∀ literal, assumed literal → assumed' literal)
    (hallowed : ∀ rule, allowed rule → allowed' rule) :
    AllJustifiedBy assumed' allowed' steps :=
  fun before step after hsplit => (h before step after hsplit).mono hassumed hallowed

theorem of_append {assumed : Literal → Prop} {allowed : Rule → Prop} {steps more : List Step}
    (h : AllJustifiedBy assumed allowed (steps ++ more)) :
    AllJustifiedBy assumed allowed steps := by
  intro before step after hsplit
  exact h before step (after ++ more) (by simp [hsplit])

/-- A further step has to be justified only by itself. -/
theorem append_singleton {assumed : Literal → Prop} {allowed : Rule → Prop} {steps : List Step}
    {last : Step} (h : AllJustifiedBy assumed allowed steps)
    (hlast : last.JustifiedBy assumed allowed (Facts.replay steps)) :
    AllJustifiedBy assumed allowed (steps ++ [last]) := by
  intro before step after hsplit
  rcases List.eq_nil_or_concat after with rfl | ⟨front, final, rfl⟩
  · obtain ⟨rfl, heq⟩ := List.append_inj' hsplit rfl
    cases heq
    exact hlast
  · have hfront : steps = before ++ step :: front := by
      have hassoc : steps ++ [last] = (before ++ step :: front) ++ [final] := by simpa using hsplit
      exact (List.append_inj' hassoc rfl).1
    exact h before step front hfront

end Step.AllJustifiedBy

namespace Account

/-- The facts are what the trace learnt, every step of the trace has its reason, and every rule is
    the one its text spells. -/
structure Grounded (assumed : Literal → Prop) (account : Account) : Prop where
  replayed : account.facts = Facts.replay account.trace
  literals : account.facts.literals = account.trace.filterMap Step.learnt?
  justified : Step.AllJustifiedBy assumed (· ∈ account.rules) account.trace
  parsed : ∀ rule ∈ account.rules, Rule.parse rule.source = .ok rule

/-- A step adds the literal it learns behind the others, for it is justified only on an atom
    without a value. -/
theorem literals_after_of_justified {assumed : Literal → Prop} {allowed : Rule → Prop}
    {facts : Facts} {step : Step} (h : step.JustifiedBy assumed allowed facts) :
    (facts.after step).literals = facts.literals ++ step.learnt?.toList := by
  cases step with
  | assumed literal => exact Facts.literals_insert_of_fresh h.2
  | derived source conclusion => exact Facts.literals_insert_of_fresh h.1
  | repeated literal => exact (List.append_nil _).symm
  | skippedAssumption text error => exact (List.append_nil _).symm
  | invalidRuleFormat text => exact (List.append_nil _).symm
  | invalidRule text error => exact (List.append_nil _).symm
  | contradiction origin source suggested existing => exact (List.append_nil _).symm
  | invalidAnswer text error => exact (List.append_nil _).symm
  | ended outcome => exact (List.append_nil _).symm

theorem Move.preserves_grounded {assumed : Literal → Prop} {account next : Account}
    (hmove : Move assumed account next) (h : Grounded assumed account) : Grounded assumed next := by
  obtain ⟨hreplayed, hliterals, hjustified, hparsed⟩ := h
  cases hmove with
  | take step hstep =>
    refine ⟨?_, ?_, ?_, hparsed⟩
    · exact (congrArg (·.after step) hreplayed).trans
        (Facts.replay_append_singleton account.trace step).symm
    · refine (literals_after_of_justified hstep).trans ?_
      change _ = (account.trace ++ [step]).filterMap Step.learnt?
      rw [hliterals, List.filterMap_append]
      cases hlearnt : step.learnt? <;> simp [hlearnt]
    · rw [hreplayed] at hstep
      exact hjustified.append_singleton hstep
  | addRule rule hparse =>
    refine ⟨hreplayed, hliterals, ?_, ?_⟩
    · exact hjustified.mono (fun _ => id) fun _ hmem => List.mem_append_left _ hmem
    · intro other hother
      rcases List.mem_append.mp hother with hold | hnew
      · exact hparsed other hold
      · rw [List.mem_singleton.mp hnew, hparse]
  | countPass => exact ⟨hreplayed, hliterals, hjustified, hparsed⟩

theorem Reaches.preserves_grounded {assumed : Literal → Prop} {account final : Account}
    (hreaches : Reaches assumed account final) (h : Grounded assumed account) :
    Grounded assumed final := by
  induction hreaches with
  | refl => exact h
  | tail _ hmove ih => exact hmove.preserves_grounded ih

end Account

namespace Session

theorem fresh_grounded (assumed : Literal → Prop) (config : Config)
    (interrupt : Option Interrupt) (observed : Option (List Step)) :
    (fresh config interrupt observed).account.Grounded assumed where
  replayed := rfl
  literals := rfl
  justified := .nil _ _
  parsed _ hmem := by cases hmem

/-- Whatever is done with a session, its account stays grounded in the assumptions it read. -/
theorem run_grounded (config : Config) (interrupt : Option Interrupt)
    (observed : Option (List Step)) (operations : List Operation) :
    ((fresh config interrupt observed).run operations).account.Grounded
      (· ∈ operations.flatMap Operation.assumptions) :=
  (run_reaches _ operations).preserves_grounded (fresh_grounded _ config interrupt observed)

/-- The trace of any run is a derivation that can be checked step by step: the facts are the
    literals of its steps in order, one for an atom, and each step is justified by the facts that
    the steps before it add up to. Premises may have become false since, so that it is the facts of
    that moment that count. -/
theorem run_trace_checks (config : Config) (interrupt : Option Interrupt)
    (observed : Option (List Step)) (operations : List Operation) :
    let session := (fresh config interrupt observed).run operations
    session.facts.literals = session.trace.filterMap Step.learnt? ∧
      (session.facts.literals.map Literal.atom).Nodup ∧
      ∀ before step after, session.trace = before ++ step :: after →
        step.Checks (Facts.replay before) := by
  intro session
  have hgrounded := run_grounded config interrupt observed operations
  refine ⟨hgrounded.literals, session.facts.nodup, ?_⟩
  intro before step after hsplit
  exact (hgrounded.justified before step after hsplit).mono (fun _ _ => trivial) hgrounded.parsed

/-- A premise that its own consequences make false: `C` is derived while `B` has no value, and then
    `B` from `C`. The step stays justified by the facts before it. -/
theorem run_trace_checks_overtaken_premise :
    let session := (fresh {} none none).run [.readRules ["¬B → C", "C → B"], .chain fun _ => 0]
    session.trace = [] ++ .derived "¬B → C" ⟨"C", true⟩ ::
        [.derived "C → B" ⟨"B", true⟩, .ended .fixedPoint] ∧
      Step.Checks (Facts.replay []) (.derived "¬B → C" ⟨"C", true⟩) := by
  intro session
  have htrace : session.trace = [] ++ .derived "¬B → C" ⟨"C", true⟩ ::
      [.derived "C → B" ⟨"B", true⟩, .ended .fixedPoint] := by decide +kernel
  exact ⟨htrace, (run_trace_checks {} none none _).2.2 _ _ _ htrace⟩

end Session

end ForwardChaining
