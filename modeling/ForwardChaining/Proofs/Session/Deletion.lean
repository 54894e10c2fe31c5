import ForwardChaining.Proofs.Session.Operation
import ForwardChaining.Proofs.Session.Solving

namespace ForwardChaining

/-- The whole has the kept and the deleted items and no others, each kind in its order. -/
inductive Interleaves {α : Type} : (kept deleted whole : List α) → Prop where
  | nil : Interleaves [] [] []
  | keep {kept deleted whole : List α} (item : α) (h : Interleaves kept deleted whole) :
      Interleaves (item :: kept) deleted (item :: whole)
  | delete {kept deleted whole : List α} (item : α) (h : Interleaves kept deleted whole) :
      Interleaves kept (item :: deleted) (item :: whole)

namespace Interleaves

variable {α β : Type} {kept deleted whole : List α}

theorem keep_all (items : List α) : Interleaves items [] items := by
  induction items with
  | nil => exact .nil
  | cons item rest ih => exact .keep item ih

theorem eq_of_nil (h : Interleaves kept [] whole) : kept = whole := by
  induction whole generalizing kept with
  | nil =>
    cases h
    rfl
  | cons item rest ih =>
    cases h with
    | keep item h => rw [ih h]

theorem append {kept' deleted' whole' : List α} (h : Interleaves kept deleted whole)
    (h' : Interleaves kept' deleted' whole') :
    Interleaves (kept ++ kept') (deleted ++ deleted') (whole ++ whole') := by
  induction h with
  | nil => exact h'
  | keep item _ ih => exact .keep item ih
  | delete item _ ih => exact .delete item ih

theorem filterMap (f : α → Option β) (h : Interleaves kept deleted whole) :
    Interleaves (kept.filterMap f) (deleted.filterMap f) (whole.filterMap f) := by
  induction h with
  | nil => exact .nil
  | keep item _ ih =>
    cases hitem : f item with
    | none => simpa only [List.filterMap_cons_none hitem] using ih
    | some value => simpa only [List.filterMap_cons_some hitem] using ih.keep value
  | delete item _ ih =>
    cases hitem : f item with
    | none => simpa only [List.filterMap_cons_none hitem] using ih
    | some value => simpa only [List.filterMap_cons_some hitem] using ih.delete value

theorem filter (p : α → Bool) (h : Interleaves kept deleted whole) :
    Interleaves (kept.filter p) (deleted.filter p) (whole.filter p) := by
  simpa only [List.filterMap_eq_filter] using h.filterMap (Option.guard p)

end Interleaves

theorem Facts.after_of_isRefusal {facts : Facts} {step : Step} (h : step.isRefusal = true) :
    facts.after step = facts := by
  cases step with
  | assumed literal => cases h
  | derived source conclusion => cases h
  | _ => rfl

/-- Items that leave the facts alone can be deleted: the others take the steps they took. -/
theorem Facts.interleaves_stepsBy {α : Type} {stepOn? : α → Facts → Option Step}
    {noted? : α → Option Step} {kept deleted items : List α}
    (h : Interleaves kept deleted items)
    (hdeleted : ∀ item ∈ deleted, ∃ step, noted? item = some step ∧ step.isRefusal = true ∧
      ∀ facts, stepOn? item facts = some step) (facts : Facts) :
    Interleaves (facts.stepsBy stepOn? kept) (deleted.filterMap noted?)
      (facts.stepsBy stepOn? items) := by
  induction h generalizing facts with
  | nil => exact .nil
  | keep item _ ih =>
    have hrest := ih hdeleted
    rw [stepsBy, stepsBy]
    cases stepOn? item facts with
    | none => exact hrest facts
    | some step => exact .keep step (hrest (facts.after step))
  | delete item _ ih =>
    obtain ⟨⟨step, hnoted, hrefusal, hstep⟩, hothers⟩ := List.forall_mem_cons.mp hdeleted
    -- The next item finds the facts that it finds without the deleted one.
    simp only [stepsBy, hstep, after_of_isRefusal hrefusal, List.filterMap_cons_some hnoted]
    exact .delete step (ih hothers facts)

theorem Facts.afterAll_of_interleaves {kept lost steps : List Step}
    (h : Interleaves kept lost steps) (hlost : ∀ step ∈ lost, step.isRefusal = true)
    (facts : Facts) : facts.afterAll steps = facts.afterAll kept := by
  induction h generalizing facts with
  | nil => rfl
  | keep step _ ih => exact ih hlost (facts.after step)
  | delete step _ ih =>
    obtain ⟨hrefusal, hothers⟩ := List.forall_mem_cons.mp hlost
    change (facts.after step).afterAll _ = _
    rw [after_of_isRefusal hrefusal, ih hothers]

namespace Counters

def addSkipped (counters : Counters) (count : Nat) : Counters :=
  { counters with skipped := counters.skipped + count }

theorem tally_of_isRefusal {counters : Counters} {step : Step} (h : step.isRefusal = true) :
    counters.tally step = counters.addSkipped 1 := by
  cases step with
  | skippedAssumption text error => rfl
  | invalidRuleFormat text => rfl
  | invalidRule text error => rfl
  | _ => cases h

theorem foldl_tally_addSkipped (counters : Counters) (count : Nat) (steps : List Step) :
    steps.foldl tally (counters.addSkipped count) =
      (steps.foldl tally counters).addSkipped count := by
  induction steps generalizing counters with
  | nil => rfl
  | cons step rest ih =>
    have hfirst : (counters.addSkipped count).tally step =
        (counters.tally step).addSkipped count := by
      cases step <;> simp [tally, addSkipped, Nat.add_right_comm]
    rw [List.foldl_cons, List.foldl_cons, hfirst, ih]

theorem foldl_tally_of_interleaves {kept lost steps : List Step}
    (h : Interleaves kept lost steps) (hlost : ∀ step ∈ lost, step.isRefusal = true)
    (counters : Counters) :
    steps.foldl tally counters = (kept.foldl tally counters).addSkipped lost.length := by
  induction h generalizing counters with
  | nil => rfl
  | keep step _ ih => exact ih hlost (counters.tally step)
  | delete step _ ih =>
    obtain ⟨hrefusal, hothers⟩ := List.forall_mem_cons.mp hlost
    rw [List.foldl_cons, tally_of_isRefusal hrefusal, ih hothers, foldl_tally_addSkipped]
    simp [addSkipped, Nat.add_comm, Nat.add_left_comm]

end Counters

/-- Two accounts that part only by steps that note what could not be read. -/
structure Account.Without (lost : List Step) (reduced full : Account) : Prop where
  facts : reduced.facts = full.facts
  rules : reduced.rules = full.rules
  counters : full.counters = reduced.counters.addSkipped lost.length
  trace : Interleaves reduced.trace lost full.trace

theorem Account.without_takeAll {kept lost steps : List Step} (h : Interleaves kept lost steps)
    (hlost : ∀ step ∈ lost, step.isRefusal = true) (account : Account) :
    Without lost (account.takeAll kept) (account.takeAll steps) where
  facts := by simp only [facts_takeAll, Facts.afterAll_of_interleaves h hlost]
  rules := by simp only [rules_takeAll]
  counters := by simp only [counters_takeAll, Counters.foldl_tally_of_interleaves h hlost]
  trace := by
    simpa only [trace_takeAll, List.nil_append] using (Interleaves.keep_all account.trace).append h

namespace RuleBase

/-- An entry that gives no rule, though it has an arrow, or no literal, though it has none and is
    not blank. -/
def Unreadable (entry : String) : Prop :=
  if Rule.isImplication entry then Rule.ofText? entry = none
  else Text.trim entry ≠ "" ∧ Literal.ofEntry? entry = none

instance (entry : String) : Decidable (Unreadable entry) :=
  inferInstanceAs (Decidable (ite _ _ _))

/-- The steps that note the unreadable among the entries, the assumptions before the rules. -/
def refusals (entries : List String) : List Step :=
  (entries.filter (!Rule.isImplication ·)).filterMap Literal.refusal? ++
    (entries.filter Rule.isImplication).filterMap Rule.refusal?

theorem isRefusal_of_mem_refusals {entries : List String} {step : Step}
    (hmem : step ∈ refusals entries) : step.isRefusal = true := by
  rcases List.mem_append.mp hmem with hassumption | hrule
  · obtain ⟨entry, _, hrefusal⟩ := List.mem_filterMap.mp hassumption
    exact Literal.isRefusal_of_refusal? hrefusal
  · obtain ⟨text, _, hrefusal⟩ := List.mem_filterMap.mp hrule
    exact Rule.isRefusal_of_refusal? hrefusal

theorem Unreadable.ofText? {entry : String} (h : Unreadable entry)
    (harrow : Rule.isImplication entry = true) : Rule.ofText? entry = none := by
  rwa [Unreadable, if_pos harrow] at h

theorem Unreadable.rule_refusal? {entry : String} (h : Unreadable entry)
    (harrow : Rule.isImplication entry = true) : ∃ step, Rule.refusal? entry = some step := by
  have hnone := h.ofText? harrow
  unfold Rule.ofText? at hnone
  unfold Rule.refusal?
  cases hparse : Rule.parse entry with
  | ok rule => simp [hparse, Except.toOption] at hnone
  | error error => exact ⟨_, rfl⟩

theorem Unreadable.literal_refusal? {entry : String} (h : Unreadable entry)
    (harrow : Rule.isImplication entry = false) : ∃ step, Literal.refusal? entry = some step := by
  rw [Unreadable, if_neg (by simp [harrow])] at h
  obtain ⟨hnonblank, hnone⟩ := h
  unfold Literal.ofEntry? at hnone
  unfold Literal.refusal?
  rw [if_neg (by simpa [String.isEmpty_iff] using hnonblank)]
  cases hparse : Literal.parse (Text.trim entry) with
  | ok literal => simp [hparse, Except.toOption] at hnone
  | error error => exact ⟨_, rfl⟩

/-- Every unreadable entry is noted once. -/
theorem length_refusals {entries : List String} (h : ∀ entry ∈ entries, Unreadable entry) :
    (refusals entries).length = entries.length := by
  induction entries with
  | nil => rfl
  | cons entry rest ih =>
    obtain ⟨hfirst, hothers⟩ := List.forall_mem_cons.mp h
    have hrest := ih hothers
    unfold refusals at hrest ⊢
    rw [List.length_append] at hrest ⊢
    cases harrow : Rule.isImplication entry with
    | true =>
      obtain ⟨step, hstep⟩ := hfirst.rule_refusal? harrow
      simp only [List.filter_cons, harrow, Bool.not_true, Bool.false_eq_true, ↓reduceIte,
        List.filterMap_cons_some hstep, List.length_cons]
      omega
    | false =>
      obtain ⟨step, hstep⟩ := hfirst.literal_refusal? harrow
      simp only [List.filter_cons, harrow, Bool.not_false, Bool.false_eq_true, ↓reduceIte,
        List.filterMap_cons_some hstep, List.length_cons]
      omega

section

variable {kept deleted entries : List String} (h : Interleaves kept deleted entries)
  (hunreadable : ∀ entry ∈ deleted, Unreadable entry)

include h hunreadable

theorem interleaves_loadSteps (facts : Facts) (config : Config) :
    Interleaves (facts.loadSteps config kept) (refusals deleted)
      (facts.loadSteps config entries) := by
  have hassumptions := h.filter (!Rule.isImplication ·)
  have hrules := h.filter Rule.isImplication
  refine (Facts.interleaves_stepsBy hassumptions ?_ facts).append (hrules.filterMap Rule.refusal?)
  intro entry hentry
  obtain ⟨hmem, harrow⟩ := List.mem_filter.mp hentry
  obtain ⟨step, hstep⟩ := (hunreadable entry hmem).literal_refusal? (by simpa using harrow)
  exact ⟨step, hstep, Literal.isRefusal_of_refusal? hstep,
    fun _ => Literal.entryStep?_of_refusal hstep⟩

theorem ofEntries_of_interleaves : Rule.ofEntries kept = Rule.ofEntries entries := by
  have hrules := (h.filter Rule.isImplication).filterMap Rule.ofText?
  have hnone : (deleted.filter Rule.isImplication).filterMap Rule.ofText? = [] := by
    apply List.filterMap_eq_nil_iff.mpr
    intro entry hentry
    obtain ⟨hmem, harrow⟩ := List.mem_filter.mp hentry
    exact (hunreadable entry hmem).ofText? harrow
  rw [hnone] at hrules
  exact hrules.eq_of_nil

end

end RuleBase

namespace Session

section

variable {session : Session} {ruleBase : RuleBase} {kept deleted : List String}
  (hentries : Interleaves kept deleted ruleBase.entries)
  (hunreadable : ∀ entry ∈ deleted, RuleBase.Unreadable entry)

include hentries hunreadable

theorem load_without_unreadable :
    (session.load { ruleBase with entries := kept }).facts = (session.load ruleBase).facts ∧
      (session.load { ruleBase with entries := kept }).rules = (session.load ruleBase).rules := by
  have hload := RuleBase.interleaves_loadSteps hentries hunreadable session.facts session.config
  have hlost : ∀ step ∈ RuleBase.refusals deleted, step.isRefusal = true :=
    fun _ => RuleBase.isRefusal_of_mem_refusals
  constructor
  · rw [facts_load, facts_load, Facts.afterAll_of_interleaves hload hlost]
  · rw [rules_load, rules_load, RuleBase.ofEntries_of_interleaves hentries hunreadable]

/-- Loaded with the same facts and rules, the two chain in step, and answer alike. -/
theorem account_solve_without {clock clock' : Clock}
    (htime : ((session.load ruleBase).chain clock).1 ≠ .timeLimit)
    (htime' : ((session.load { ruleBase with entries := kept }).chain clock').1 ≠ .timeLimit) :
    Account.Without (RuleBase.refusals deleted)
      (session.solve { ruleBase with entries := kept } clock').2.account
      (session.solve ruleBase clock).2.account := by
  obtain ⟨hfacts, hrules⟩ := @load_without_unreadable session ruleBase kept deleted hentries
    hunreadable
  obtain ⟨hconfig, hinterrupt⟩ := settings_eq_iff.mp <|
    (session.settings_load ruleBase).trans
      (session.settings_load { ruleBase with entries := kept }).symm
  obtain ⟨made, hchained⟩ := chain_chained (session.load ruleBase) clock
  obtain ⟨houtcome, hchained'⟩ := chain_lockstep hchained
    (fun count _ => by rw [hfacts, hrules]) (by rw [hconfig]) hinterrupt htime htime'
  -- All that comes after the reading is the same in both, so only steps of reading can be lost.
  have hfull := account_solve hchained
  have hreduced := account_solve hchained'
  rw [hfacts, hrules, ← houtcome, RuleBase.ofEntries_of_interleaves hentries hunreadable]
    at hreduced
  rw [hfull, hreduced]
  refine Account.without_takeAll ?_ (fun _ => RuleBase.isRefusal_of_mem_refusals) _
  have hload := RuleBase.interleaves_loadSteps hentries hunreadable session.facts session.config
  have hsteps := hload.append (Interleaves.keep_all
    ((session.load ruleBase).facts.passSteps (session.load ruleBase).rules made ++
      .ended ((session.load ruleBase).chain clock).1 ::
        (Literal.answerRefusal? (Text.trim ruleBase.answer)).toList))
  rwa [List.append_nil] at hsteps

end

/-- Unreadable entries of a rule base are of no consequence. Deleting any of them changes neither
    the facts nor the verdict nor anything counted but the entries skipped, which are fewer by those
    deleted. The steps lose those that note the deleted entries, and no others. -/
theorem solve_without_unreadable {session : Session} {ruleBase : RuleBase}
    {kept deleted : List String} {clock clock' : Clock}
    (hentries : Interleaves kept deleted ruleBase.entries)
    (hunreadable : ∀ entry ∈ deleted, RuleBase.Unreadable entry)
    (htime : ((session.load ruleBase).chain clock).1 ≠ .timeLimit)
    (htime' : ((session.load { ruleBase with entries := kept }).chain clock').1 ≠ .timeLimit) :
    let full := session.solve ruleBase clock
    let reduced := session.solve { ruleBase with entries := kept } clock'
    reduced.1.facts = full.1.facts ∧ reduced.1.result = full.1.result ∧
      reduced.1.isAnswerTrue = full.1.isAnswerTrue ∧
      full.2.counters = { reduced.2.counters with
        skipped := reduced.2.counters.skipped + deleted.length } ∧
      Interleaves reduced.1.steps (RuleBase.refusals deleted) full.1.steps := by
  intro full reduced
  have hwithout : Account.Without (RuleBase.refusals deleted) reduced.2.account full.2.account :=
    account_solve_without hentries hunreadable htime htime'
  have hfull : full.1 = full.2.account.solution ruleBase := solve_solution session ruleBase clock
  have hreduced : reduced.1 = reduced.2.account.solution { ruleBase with entries := kept } :=
    solve_solution session _ clock'
  have hcounters := hwithout.counters
  rw [RuleBase.length_refusals hunreadable] at hcounters
  rw [hfull, hreduced]
  refine ⟨hwithout.facts, ?_, ?_, hcounters, hwithout.trace⟩
  · simp only [Account.solution, hwithout.facts]
  · simp only [Account.solution, hwithout.facts]

/-- Two of three unreadable entries are deleted, an assumption and a rule with two arrows. -/
theorem solve_without_unreadable_two :
    let session := fresh {} none none
    let ruleBase : RuleBase :=
      { entries := ["p ∧", "p", "p → q → r", "p → q", "p ∧ → r", "¬q"], answer := "q" }
    let kept := ["p", "p → q", "p ∧ → r", "¬q"]
    let full := session.solve ruleBase fun _ => 0
    let reduced := session.solve { ruleBase with entries := kept } fun _ => 5
    reduced.1.steps = [.assumed ⟨"p", true⟩, .assumed ⟨"q", false⟩,
        .invalidRule "p ∧ → r" .unexpectedEnd,
        .contradiction .rule "p → q" ⟨"q", true⟩ false, .ended .fixedPoint] ∧
      reduced.1.isAnswerTrue = full.1.isAnswerTrue ∧ full.2.counters.skipped = 3 ∧
      Interleaves reduced.1.steps
        [.skippedAssumption "p ∧" .unexpectedEnd, .invalidRuleFormat "p → q → r"]
        full.1.steps := by
  intro session ruleBase kept full reduced
  have hentries : Interleaves kept ["p ∧", "p → q → r"] ruleBase.entries :=
    .delete _ (.keep _ (.delete _ (.keep_all _)))
  have hunreadable : ∀ entry ∈ ["p ∧", "p → q → r"], RuleBase.Unreadable entry := by
    decide +kernel
  have hrefusals : RuleBase.refusals ["p ∧", "p → q → r"] =
      [.skippedAssumption "p ∧" .unexpectedEnd, .invalidRuleFormat "p → q → r"] := by
    decide +kernel
  have hskipped : reduced.2.counters.skipped = 1 := by decide +kernel
  obtain ⟨_, _, hanswer, hcounters, hsteps⟩ := @solve_without_unreadable session ruleBase kept
    _ (fun _ => 0) (fun _ => 5) hentries hunreadable (by decide +kernel) (by decide +kernel)
  rw [hrefusals] at hsteps
  refine ⟨by decide +kernel, hanswer, ?_, hsteps⟩
  rw [hcounters, hskipped]
  rfl

end Session

end ForwardChaining
