import ForwardChaining.Proofs.Session.Consequences
import ForwardChaining.Proofs.Session.Pass

namespace ForwardChaining

def Step.isContradiction : Step → Bool
  | .contradiction _ _ _ _ => true
  | _ => false

theorem Step.exists_of_isContradiction {step : Step} (h : step.isContradiction = true) :
    ∃ origin source suggested existing, step = .contradiction origin source suggested existing := by
  cases step with
  | contradiction origin source suggested existing =>
    exact ⟨origin, source, suggested, existing, rfl⟩
  | _ => cases h

theorem Literal.parse_empty : Literal.parse "" = .error .unexpectedEnd := by
  decide +kernel

namespace Session

/-- Some step of the session noted a contradiction. -/
def Contradicted (session : Session) : Prop :=
  ∃ step ∈ session.trace, step.isContradiction = true

/-- The literal is held, or else there was a contradiction. -/
def Settles (session : Session) (literal : Literal) : Prop :=
  literal ∈ session.facts.literals ∨ session.Contradicted

theorem Settles.of_extends {earlier later : Session} {literal : Literal}
    (h : earlier.Settles literal) (hextends : earlier.account.Extends later.account) :
    later.Settles literal := by
  rcases h with hheld | ⟨step, hstep, hcontradiction⟩
  · exact .inl (hextends.facts.subset hheld)
  · exact .inr ⟨step, hextends.trace.subset hstep, hcontradiction⟩

theorem assume_settles (session : Session) (text : String) (literal : Literal) :
    (session.assume text literal).Settles literal := by
  unfold assume
  split
  · rename_i hfresh
    refine .inl ?_
    change literal ∈ (session.facts.insert literal).literals
    rw [Facts.literals_insert_of_fresh (Facts.standing_eq_fresh_iff.mp hfresh)]
    exact List.mem_append_right _ (List.mem_singleton.mpr rfl)
  · rename_i hknown
    have hheld : literal ∈ session.facts.literals :=
      Facts.valueOf_eq_some_iff.mp (Facts.standing_eq_known_iff.mp hknown)
    dsimp only
    split <;> exact .inl hheld
  · rename_i existing _
    refine .inr ⟨.contradiction .assumption text literal existing, ?_, rfl⟩
    exact List.mem_append_right _ (List.mem_singleton.mpr rfl)

theorem readAssumption_settles (session : Session) (entry : String) {literal : Literal}
    (hentry : Literal.ofEntry? entry = some literal) :
    (session.readAssumption entry).Settles literal := by
  have hparse : Literal.parse (Text.trim entry) = .ok literal := by
    unfold Literal.ofEntry? at hentry
    cases hresult : Literal.parse (Text.trim entry) with
    | error error => simp [hresult, Except.toOption] at hentry
    | ok other => simpa [hresult, Except.toOption] using hentry
  unfold readAssumption
  dsimp only
  split
  · rename_i hempty
    rw [String.isEmpty_iff.mp hempty, Literal.parse_empty] at hparse
    cases hparse
  · rw [hparse]
    exact assume_settles _ _ literal

theorem foldl_readAssumption_settles (session : Session) {entries : List String} {entry : String}
    {literal : Literal} (hmem : entry ∈ entries) (hentry : Literal.ofEntry? entry = some literal) :
    (entries.foldl readAssumption session).Settles literal := by
  induction entries generalizing session with
  | nil => cases hmem
  | cons first rest ih =>
    rw [List.foldl_cons]
    rcases List.mem_cons.mp hmem with rfl | hrest
    · have hreaches : Account.Reaches (fun _ => True) (session.readAssumption entry).account
          (rest.foldl readAssumption (session.readAssumption entry)).account :=
        foldl_reaches
          (fun next _ session => readAssumption_reaches session next fun _ _ => trivial) _
      exact (session.readAssumption_settles entry hentry).of_extends hreaches.extends
    · exact ih _ hrest

theorem perform_settles (session : Session) {operation : Operation} {literal : Literal}
    (hmem : literal ∈ operation.assumptions) : (session.perform operation).Settles literal := by
  cases operation with
  | readAssumption entry => exact session.readAssumption_settles entry (Option.mem_toList.mp hmem)
  | readAssumptions entries =>
    obtain ⟨entry, hentry, hliteral⟩ := List.mem_filterMap.mp hmem
    exact session.foldl_readAssumption_settles hentry hliteral
  | readRule text => cases hmem
  | readRules entries => cases hmem
  | chain clock => cases hmem
  | answer text => cases hmem
  | reportOn text => cases hmem
  | configure config => cases hmem
  | interruptBy interrupt => cases hmem

/-- Every assumption that a run reads is held at its end, unless there was a contradiction. -/
theorem run_settles (session : Session) {operations : List Operation} {literal : Literal}
    (hmem : literal ∈ operations.flatMap Operation.assumptions) :
    (session.run operations).Settles literal := by
  induction operations generalizing session with
  | nil => cases hmem
  | cons operation rest ih =>
    rw [List.flatMap_cons] at hmem
    rcases List.mem_append.mp hmem with hfirst | hrest
    · exact (session.perform_settles hfirst).of_extends
        ((session.perform operation).run_reaches rest).extends
    · exact ih _ hrest

/-- Facts on which the rules note no contradiction at a fixed point are closed under them. -/
theorem chain_facts_closed {session : Session} {clock : Clock}
    (hfixed : (session.chain clock).1 = .fixedPoint)
    (huncontradicted : ¬ (session.chain clock).2.Contradicted) {rule : Rule}
    (hrule : rule ∈ session.rules)
    (hpremise : rule.premise.holds (session.chain clock).2.facts.valueOf = true) :
    rule.conclusion ∈ (session.chain clock).2.facts.literals := by
  obtain ⟨_, hsaturated, earlier, htrace⟩ := chain_of_fixedPoint hfixed
  cases hstanding : (session.chain clock).2.facts.standing rule.conclusion with
  | fresh =>
    exact absurd (Facts.standing_eq_fresh_iff.mp hstanding) (hsaturated rule hrule hpremise)
  | known => exact Facts.valueOf_eq_some_iff.mp (Facts.standing_eq_known_iff.mp hstanding)
  | opposed existing =>
    -- The rule would have noted it in the last pass, which it had on these very facts.
    obtain ⟨hvalue, hopposed⟩ := Facts.standing_eq_opposed_iff.mp hstanding
    have hstep : rule.stepOn? (session.chain clock).2.facts =
        some (.contradiction .rule rule.source rule.conclusion existing) :=
      Rule.stepOn?_eq_some_iff.mpr (.contradiction hpremise hvalue hopposed)
    have hnoted : .contradiction .rule rule.source rule.conclusion existing ∈
        (session.chain clock).2.trace := by
      rw [htrace]
      refine List.mem_append_left _ (List.mem_append_right _ ?_)
      exact List.mem_filterMap.mpr ⟨rule, hrule, hstep⟩
    exact absurd ⟨_, hnoted, rfl⟩ huncontradicted

section FixedPoint

variable {config : Config} {interrupt : Option Interrupt} {observed : Option (List Step)}
  {operations : List Operation} {clock : Clock}

/-- What chaining holds at any time follows from what was read, and so does every contradiction it
    notes. -/
theorem chain_sound
    (hpositive : ∀ rule ∈ operations.flatMap Operation.rules, rule.premise.IsPositive) :
    let final := (((fresh config interrupt observed).run operations).chain clock).2
    let literals := consequences (operations.flatMap Operation.assumptions)
      (operations.flatMap Operation.rules)
    final.facts.toSet ⊆ literals ∧ (final.Contradicted → ¬ Consistent literals) := by
  intro final literals
  have hclosed : ClosedUnder (operations.flatMap Operation.assumptions)
    (operations.flatMap Operation.rules) literals := (isLeast_consequences hpositive).1
  have hgrounded := (chain_reaches _ clock).preserves_grounded
    (run_grounded config interrupt observed operations)
  have hrules : final.rules = operations.flatMap Operation.rules :=
    (rules_chain _ clock).trans (rules_run _ operations)
  have hjustified := hgrounded.justified
  change Step.AllJustifiedBy _ (· ∈ final.rules) final.trace at hjustified
  rw [hrules] at hjustified
  constructor
  · have hsubset := hclosed.replay_subset hpositive hjustified
    rwa [show final.facts = Facts.replay final.trace from hgrounded.replayed]
  · rintro ⟨step, hstep, hcontradiction⟩ hconsistent
    obtain ⟨origin, source, ⟨atom, polarity⟩, existing, rfl⟩ :=
      Step.exists_of_isContradiction hcontradiction
    obtain ⟨hsuggested, hexisting, hopposed⟩ := hclosed.contradiction_mem hpositive hjustified hstep
    cases polarity <;> cases existing
    · exact hopposed rfl
    · exact hconsistent atom ⟨hexisting, hsuggested⟩
    · exact hconsistent atom ⟨hsuggested, hexisting⟩
    · exact hopposed rfl

/-- At a fixed point without a contradiction the facts are all that follows from what was read. -/
theorem chain_facts_eq_consequences
    (hpositive : ∀ rule ∈ operations.flatMap Operation.rules, rule.premise.IsPositive)
    (hfixed : (((fresh config interrupt observed).run operations).chain clock).1 = .fixedPoint)
    (huncontradicted :
      ¬ (((fresh config interrupt observed).run operations).chain clock).2.Contradicted) :
    (((fresh config interrupt observed).run operations).chain clock).2.facts.toSet =
      consequences (operations.flatMap Operation.assumptions)
        (operations.flatMap Operation.rules) := by
  refine (chain_sound hpositive).1.antisymm ((isLeast_consequences hpositive).2 ⟨?_, ?_⟩)
  · intro literal hmem
    have hreaches : Account.Reaches (fun _ => True) _ _ :=
      chain_reaches ((fresh config interrupt observed).run operations) clock
    exact ((run_settles _ hmem).of_extends hreaches.extends).resolve_right huncontradicted
  · intro rule hrule hpremise
    have hrule' : rule ∈ ((fresh config interrupt observed).run operations).rules := by
      rw [rules_run]
      exact hrule
    refine chain_facts_closed hfixed huncontradicted hrule' ?_
    rwa [← Formula.holds_congr fun _ _ => Facts.asserted_toSet_iff]

/-- A contradiction is noted on the way to a fixed point exactly if one follows from what was
    read. -/
theorem chain_contradicted_iff
    (hpositive : ∀ rule ∈ operations.flatMap Operation.rules, rule.premise.IsPositive)
    (hfixed : (((fresh config interrupt observed).run operations).chain clock).1 = .fixedPoint) :
    (((fresh config interrupt observed).run operations).chain clock).2.Contradicted ↔
      ¬ Consistent (consequences (operations.flatMap Operation.assumptions)
        (operations.flatMap Operation.rules)) := by
  refine ⟨(chain_sound hpositive).2, fun hinconsistent => ?_⟩
  by_contra huncontradicted
  rw [← chain_facts_eq_consequences hpositive hfixed huncontradicted] at hinconsistent
  exact hinconsistent (Facts.consistent_toSet _)

end FixedPoint

theorem reportOn_congr {first second : Session} (h : first.facts.valueOf = second.facts.valueOf)
    (answer : String) : (first.reportOn answer).1 = (second.reportOn answer).1 := by
  unfold reportOn Verdict.ofFacts
  rw [h]

/-- Chaining computes the least fixed point, in whatever order things are read, repeated and
    chained in between under whatever limits. With positive premises, a run that ends at a fixed
    point has noted a contradiction exactly if the least closed set of literals has one. If not, the
    facts are that set, and every other run that reads the same assumptions and rules and ends at a
    fixed point has the same values and gives the same verdict on every answer. -/
theorem chain_eq_leastModel {config : Config} {interrupt : Option Interrupt}
    {observed : Option (List Step)} {operations : List Operation} {clock : Clock}
    (hpositive : ∀ rule ∈ operations.flatMap Operation.rules, rule.premise.IsPositive)
    (hfixed : (((fresh config interrupt observed).run operations).chain clock).1 = .fixedPoint) :
    let final := (((fresh config interrupt observed).run operations).chain clock).2
    ∃ model, IsLeast {literals | ClosedUnder (operations.flatMap Operation.assumptions)
        (operations.flatMap Operation.rules) literals} model ∧
      (Consistent model ↔ ¬ final.Contradicted) ∧
      (Consistent model → ∀ atom polarity,
        final.facts.valueOf atom = some polarity ↔ ⟨atom, polarity⟩ ∈ model) ∧
      ∀ config' interrupt' observed' operations' clock',
        (∀ literal, literal ∈ operations.flatMap Operation.assumptions ↔
          literal ∈ operations'.flatMap Operation.assumptions) →
        (∀ rule, rule ∈ operations.flatMap Operation.rules ↔
          rule ∈ operations'.flatMap Operation.rules) →
        (((fresh config' interrupt' observed').run operations').chain clock').1 = .fixedPoint →
        let final' := (((fresh config' interrupt' observed').run operations').chain clock').2
        (final'.Contradicted ↔ final.Contradicted) ∧
          (Consistent model → final'.facts.valueOf = final.facts.valueOf ∧
            ∀ answer, (final'.reportOn answer).1 = (final.reportOn answer).1) := by
  intro final
  have hcontradicted := chain_contradicted_iff hpositive hfixed
  refine ⟨_, isLeast_consequences hpositive, (not_iff_comm.mp hcontradicted.symm).symm, ?_, ?_⟩
  · intro hconsistent atom polarity
    have huncontradicted := fun h => hcontradicted.mp h hconsistent
    rw [← chain_facts_eq_consequences hpositive hfixed huncontradicted]
    exact @Facts.valueOf_eq_some_iff _ ⟨atom, polarity⟩
  · intro config' interrupt' observed' operations' clock' hassumptions hrules hfixed' final'
    have hpositive' : ∀ rule ∈ operations'.flatMap Operation.rules, rule.premise.IsPositive :=
      fun rule hrule => hpositive rule ((hrules rule).mpr hrule)
    have hcontradicted' := chain_contradicted_iff hpositive' hfixed'
    have hmodels := consequences_congr hassumptions hrules
    rw [← hmodels] at hcontradicted'
    refine ⟨hcontradicted'.trans hcontradicted.symm, fun hconsistent => ?_⟩
    have hfacts := chain_facts_eq_consequences hpositive hfixed
      fun h => hcontradicted.mp h hconsistent
    have hfacts' := chain_facts_eq_consequences hpositive' hfixed'
      fun h => hcontradicted'.mp h hconsistent
    have hvalues : final'.facts.valueOf = final.facts.valueOf :=
      Facts.valueOf_congr (hfacts'.trans (hmodels.symm.trans hfacts.symm))
    exact ⟨hvalues, reportOn_congr hvalues⟩

/-- Two orders of the same two assumptions and two rules, the first with a chain call in the middle
    that is stopped after one pass. -/
theorem chain_eq_leastModel_reordered :
    let operations : List Operation := [.readRules ["A ∧ B → C", "¬¬C → ¬D"], .readAssumption "A",
      .interruptBy (some (.after 1)), .chain fun _ => 0, .interruptBy none, .readAssumption "B"]
    let reordered : List Operation := [.readAssumptions ["B", "A", "B"], .readRule "¬¬C → ¬D",
      .readRule "A ∧ B → C"]
    let final := (((fresh {} none none).run operations).chain fun _ => 0).2
    let final' := (((fresh {} none none).run reordered).chain fun _ => 0).2
    final.facts.literals = [⟨"A", true⟩, ⟨"B", true⟩, ⟨"C", true⟩, ⟨"D", false⟩] ∧
      ¬ final.Contradicted ∧ final'.facts.valueOf = final.facts.valueOf := by
  intro operations reordered final final'
  have hpositive : ∀ rule ∈ operations.flatMap Operation.rules, rule.premise.IsPositive := by
    decide +kernel
  have hfixed : (((fresh {} none none).run operations).chain fun _ => 0).1 = .fixedPoint := by
    decide +kernel
  have hfixed' : (((fresh {} none none).run reordered).chain fun _ => 0).1 = .fixedPoint := by
    decide +kernel
  have hassumptions : operations.flatMap Operation.assumptions = [⟨"A", true⟩, ⟨"B", true⟩] ∧
      reordered.flatMap Operation.assumptions = [⟨"B", true⟩, ⟨"A", true⟩, ⟨"B", true⟩] := by
    decide +kernel
  have hrules : reordered.flatMap Operation.rules =
      (operations.flatMap Operation.rules).reverse := by
    decide +kernel
  have huncontradicted : ¬ final.Contradicted := by
    unfold Contradicted
    decide +kernel
  obtain ⟨model, _, hconsistent, _, hsame⟩ := chain_eq_leastModel hpositive hfixed
  have hreordered := (hsame {} none none reordered (fun _ => 0)
    (by rw [hassumptions.1, hassumptions.2]; simp [or_comm]) (by simp [hrules]) hfixed').2
  exact ⟨by decide +kernel, huncontradicted, (hreordered (hconsistent.mpr huncontradicted)).1⟩

end Session

end ForwardChaining
