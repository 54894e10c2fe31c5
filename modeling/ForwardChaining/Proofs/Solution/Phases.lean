import Mathlib.Data.List.Forall2
import ForwardChaining.Proofs.Rule.Format
import ForwardChaining.Proofs.Session.Solving

namespace ForwardChaining

/-- How a step notes an assumption, given its trimmed text and the facts before it. -/
def Step.NotesAssumption (facts : Facts) (text : String) : Step → Prop
  | .assumed literal => Literal.parse text = .ok literal ∧ facts.valueOf literal.atom = none
  | .repeated literal =>
    Literal.parse text = .ok literal ∧ facts.valueOf.satisfies literal = true
  | .contradiction origin source suggested existing =>
    origin = .assumption ∧ source = text ∧ Literal.parse text = .ok suggested ∧
      facts.valueOf suggested.atom = some existing ∧ existing ≠ suggested.polarity
  | .skippedAssumption skipped error => skipped = text ∧ Literal.parse text = .error error
  | .invalidRuleFormat _ | .invalidRule _ _ | .derived _ _ | .invalidAnswer _ _ | .ended _ => False

theorem Literal.notesAssumption_of_entryStep? {config : Config} {entry : String} {facts : Facts}
    {step : Step} (hstep : entryStep? config entry facts = some step) :
    step.NotesAssumption facts (Text.trim entry) := by
  unfold entryStep? at hstep
  split at hstep
  · cases hstep
  · cases hparse : parse (Text.trim entry) with
    | error error =>
      rw [hparse] at hstep
      cases hstep
      exact ⟨rfl, hparse⟩
    | ok literal =>
      simp only [hparse] at hstep
      cases hstanding : facts.standing literal with
      | fresh =>
        rw [hstanding] at hstep
        cases hstep
        exact ⟨hparse, Facts.standing_eq_fresh_iff.mp hstanding⟩
      | known =>
        simp only [hstanding] at hstep
        split at hstep
        · cases hstep
          exact ⟨hparse, beq_iff_eq.mpr (Facts.standing_eq_known_iff.mp hstanding)⟩
        · cases hstep
      | opposed existing =>
        obtain ⟨hvalue, hpolarity⟩ := Facts.standing_eq_opposed_iff.mp hstanding
        rw [hstanding] at hstep
        cases hstep
        exact ⟨rfl, rfl, hparse, hvalue, hpolarity⟩

/-- The steps that note assumptions, in order: one for each that is not passed over, on the facts
    that those before it have left. -/
inductive AssumptionsNoted (config : Config) : Facts → List String → List Step → Prop where
  | nil (facts : Facts) : AssumptionsNoted config facts [] []
  | passOver {facts : Facts} {entry : String} {rest : List String} {steps : List Step}
      (hpassed : Literal.PassedOver config entry facts)
      (hrest : AssumptionsNoted config facts rest steps) :
      AssumptionsNoted config facts (entry :: rest) steps
  | note {facts : Facts} {entry : String} {step : Step} {rest : List String} {steps : List Step}
      (hkept : ¬ Literal.PassedOver config entry facts)
      (hnotes : step.NotesAssumption facts (Text.trim entry))
      (hrest : AssumptionsNoted config (facts.after step) rest steps) :
      AssumptionsNoted config facts (entry :: rest) (step :: steps)

theorem Facts.stepsBy_assumptionsNoted (config : Config) (entries : List String) (facts : Facts) :
    AssumptionsNoted config facts entries
      (facts.stepsBy (Literal.entryStep? config) entries) := by
  induction entries generalizing facts with
  | nil => exact .nil facts
  | cons entry rest ih =>
    rw [Facts.stepsBy_cons]
    cases hstep : Literal.entryStep? config entry facts with
    | none => exact .passOver (Literal.entryStep?_eq_none_iff.mp hstep) (ih facts)
    | some step =>
      refine .note (fun hpassed => ?_) (Literal.notesAssumption_of_entryStep? hstep)
        (ih (facts.after step))
      rw [Literal.entryStep?_eq_none_iff.mpr hpassed] at hstep
      cases hstep

theorem forall₂_filter_filterMap {α β : Type} {related : α → β → Prop} {keep : α → Bool}
    {make? : α → Option β} {items : List α}
    (hmade : ∀ item ∈ items, keep item = true → ∃ value, make? item = some value ∧
      related item value)
    (hnone : ∀ item ∈ items, keep item = false → make? item = none) :
    List.Forall₂ related (items.filter keep) (items.filterMap make?) := by
  induction items with
  | nil => exact .nil
  | cons item rest ih =>
    obtain ⟨hmadeFirst, hmadeRest⟩ := List.forall_mem_cons.mp hmade
    obtain ⟨hnoneFirst, hnoneRest⟩ := List.forall_mem_cons.mp hnone
    have hrest := ih hmadeRest hnoneRest
    cases hkeep : keep item with
    | true =>
      obtain ⟨value, hvalue, hrelated⟩ := hmadeFirst hkeep
      rw [List.filter_cons_of_pos hkeep, List.filterMap_cons_some hvalue]
      exact .cons hrelated hrest
    | false =>
      rw [List.filter_cons_of_neg (by simp [hkeep]), List.filterMap_cons_none (hnoneFirst hkeep)]
      exact hrest

namespace Rule

/-- How a step notes a text that gives no rule: as badly formed if it has more than one arrow, and
    otherwise with the error in one of its sides. -/
def RefusedAs (text : String) (step : Step) : Prop :=
  if 2 ≤ text.toList.count arrow then
    step = .invalidRuleFormat text
  else
    ∃ error, parse text = .error error ∧ step = .invalidRule text error

theorem refusedAs_of_refusal? {text : String} {step : Step} (harrow : isImplication text = true)
    (hrefusal : refusal? text = some step) : RefusedAs text step := by
  obtain ⟨error, hparse, rfl⟩ := refusal?_eq_some_iff.mp hrefusal
  simp only [RefusedAs, isFormat_iff_of_parse harrow hparse]
  split
  · rfl
  · exact ⟨error, hparse, rfl⟩

/-- Whether an entry is to be read as a rule and can be. -/
def isReadable (entry : String) : Bool :=
  isImplication entry && (ofText? entry).isSome

/-- Whether an entry is to be read as a rule and cannot be. -/
def isUnreadable (entry : String) : Bool :=
  isImplication entry && (ofText? entry).isNone

theorem refusedAs_refusals (entries : List String) :
    List.Forall₂ RefusedAs (entries.filter isUnreadable)
      ((entries.filter isImplication).filterMap refusal?) := by
  rw [List.filterMap_filter]
  apply forall₂_filter_filterMap
  · intro entry _ hunreadable
    obtain ⟨harrow, hnone⟩ := (Bool.and_eq_true_iff).mp hunreadable
    have hnoted : refusal? entry ≠ none := fun hnone' => by
      have hsome := refusal?_eq_none_iff.mp hnone'
      simp_all
    obtain ⟨step, hstep⟩ := Option.ne_none_iff_exists'.mp hnoted
    rw [if_pos harrow]
    exact ⟨step, hstep, refusedAs_of_refusal? harrow hstep⟩
  · intro entry _ hreadable
    split
    · rename_i harrow
      apply refusal?_eq_none_iff.mpr
      simpa [isUnreadable, harrow] using hreadable
    · rfl

theorem parse_ofEntries (entries : List String) :
    List.Forall₂ (fun entry rule => parse entry = .ok rule) (entries.filter isReadable)
      (ofEntries entries) := by
  unfold ofEntries
  rw [List.filterMap_filter]
  apply forall₂_filter_filterMap
  · intro entry _ hreadable
    obtain ⟨harrow, hsome⟩ := (Bool.and_eq_true_iff).mp hreadable
    unfold ofText? at hsome
    cases hparse : parse entry with
    | error error => simp [hparse, Except.toOption] at hsome
    | ok rule => exact ⟨rule, by simp [harrow, ofText?, hparse, Except.toOption], rfl⟩
  · intro entry _ hunreadable
    split
    · rename_i harrow
      simpa [isReadable, harrow] using hunreadable
    · rfl

theorem exists_parse_of_mem_ofEntries {entries : List String} {rule : Rule}
    (hrule : rule ∈ ofEntries entries) :
    ∃ entry ∈ entries, isImplication entry = true ∧ parse entry = .ok rule := by
  obtain ⟨entry, hentry, hsome⟩ := List.mem_filterMap.mp hrule
  obtain ⟨hmem, harrow⟩ := List.mem_filter.mp hentry
  refine ⟨entry, hmem, harrow, ?_⟩
  unfold ofText? at hsome
  cases hparse : parse entry with
  | error error => simp [hparse, Except.toOption] at hsome
  | ok parsed =>
    rw [hparse] at hsome
    cases hsome
    rfl

end Rule

namespace RuleBase

/-- What a step of a solution is prompted by: an assumption, a text that gives no rule, the turn of
    a rule, the end of chaining, or an answer that is not a literal. -/
inductive Prompts (ruleBase : RuleBase) (step : Step) : Prop where
  | assumption {entry : String} {facts : Facts} (hmem : entry ∈ ruleBase.entries)
      (harrow : Rule.isImplication entry = false)
      (hnotes : step.NotesAssumption facts (Text.trim entry))
  | refusal {entry : String} (hmem : entry ∈ ruleBase.entries)
      (harrow : Rule.isImplication entry = true) (hrefusal : Rule.refusal? entry = some step)
  | turn {entry : String} {rule : Rule} {facts : Facts} (hmem : entry ∈ ruleBase.entries)
      (harrow : Rule.isImplication entry = true) (hparse : Rule.parse entry = .ok rule)
      (hturn : rule.stepOn? facts = some step)
  | ending {outcome : Outcome} (hending : step = .ended outcome)
  | answer (hrefusal : Literal.answerRefusal? ruleBase.answer = some step)

theorem prompts_of_mem_steps {ruleBase : RuleBase} {config : Config} {clock : Clock} {step : Step}
    (hstep : step ∈ (ruleBase.solve config clock).steps) : ruleBase.Prompts step := by
  obtain ⟨made, hchained⟩ :=
    Session.chain_chained (Session.load { config := config } ruleBase) clock
  rw [steps_solve hchained, Facts.loadSteps] at hstep
  simp only [List.mem_append, List.mem_singleton] at hstep
  rcases hstep with (((hassumption | hrefusal) | hturn) | hending) | hanswer
  · obtain ⟨entry, hentry, facts, hnoted⟩ := Facts.mem_stepsBy hassumption
    obtain ⟨hmem, harrow⟩ := List.mem_filter.mp hentry
    exact .assumption hmem (by simpa using harrow) (Literal.notesAssumption_of_entryStep? hnoted)
  · obtain ⟨entry, hentry, hnoted⟩ := List.mem_filterMap.mp hrefusal
    obtain ⟨hmem, harrow⟩ := List.mem_filter.mp hentry
    exact .refusal hmem harrow hnoted
  · obtain ⟨rule, hrule, facts, hnoted⟩ := Facts.mem_passSteps hturn
    obtain ⟨entry, hmem, harrow, hparse⟩ := Rule.exists_parse_of_mem_ofEntries hrule
    exact .turn hmem harrow hparse hnoted
  · exact .ending hending
  · exact .answer (Option.mem_toList.mp hanswer)

/-- The rules that solving goes by are those its entries give. -/
theorem rules_solve (ruleBase : RuleBase) (config : Config) (clock : Clock) :
    (Session.solve { config := config } ruleBase clock).2.rules =
      Rule.ofEntries ruleBase.entries := by
  obtain ⟨made, hchained⟩ :=
    Session.chain_chained (Session.load { config := config } ruleBase) clock
  have haccount := congrArg Account.rules (Session.account_solve hchained)
  rw [Account.rules_takeAll] at haccount
  exact haccount

/-- Solving goes through its entries in four phases, and none is lost. The assumptions are noted
    first, one step for each that is not passed over. Of the entries with an arrow those that can be
    read become the rules, and each of the others is noted. Then come the turns of the rules, how
    chaining stopped, and an answer that is not a literal. So the entries with an arrow and those
    without can be shuffled into each other in any way. -/
theorem solve_phases (ruleBase : RuleBase) (config : Config) (clock : Clock) :
    (∃ noted refused turns outcome,
      (ruleBase.solve config clock).steps = noted ++ refused ++ turns ++ [.ended outcome] ++
        (Literal.answerRefusal? ruleBase.answer).toList ∧
      AssumptionsNoted config ∅ (ruleBase.entries.filter (!Rule.isImplication ·)) noted ∧
      List.Forall₂ Rule.RefusedAs (ruleBase.entries.filter Rule.isUnreadable) refused ∧
      ∀ step ∈ turns, step.isTurn = true) ∧
    List.Forall₂ (fun entry rule => Rule.parse entry = .ok rule)
      (ruleBase.entries.filter Rule.isReadable)
      (Session.solve { config := config } ruleBase clock).2.rules ∧
    ∀ (other : RuleBase) (clock' : Clock), other.answer = ruleBase.answer →
      other.entries.filter Rule.isImplication = ruleBase.entries.filter Rule.isImplication →
      other.entries.filter (!Rule.isImplication ·) =
        ruleBase.entries.filter (!Rule.isImplication ·) →
      .ended .timeLimit ∉ (ruleBase.solve config clock).steps →
      .ended .timeLimit ∉ (other.solve config clock').steps →
      other.solve config clock' = ruleBase.solve config clock := by
  obtain ⟨made, hchained⟩ :=
    Session.chain_chained (Session.load { config := config } ruleBase) clock
  refine ⟨?_, ?_, ?_⟩
  · exact ⟨_, _, _, _, steps_solve hchained, Facts.stepsBy_assumptionsNoted config _ ∅,
      Rule.refusedAs_refusals ruleBase.entries, fun step => Facts.isTurn_of_mem_passSteps⟩
  · rw [rules_solve]
    exact Rule.parse_ofEntries ruleBase.entries
  · intro other clock' hanswer harrows hothers htime htime'
    have hload : (∅ : Facts).loadSteps config other.entries =
        (∅ : Facts).loadSteps config ruleBase.entries := by
      rw [Facts.loadSteps, Facts.loadSteps, harrows, hothers]
    have hrules : Rule.ofEntries other.entries = Rule.ofEntries ruleBase.entries := by
      rw [Rule.ofEntries, Rule.ofEntries, harrows]
    exact solve_eq_of_lockstep hanswer hload (fun _ _ => by rw [hrules]) htime htime'

/-- Every kind of entry, solved twice with the assumptions at either end, and an answer that is not
    a literal. -/
theorem solve_phases_shuffled :
    let rules := ["p → q → r", "p → q", "p ∧ → r", "q → ¬p"]
    let assumptions := ["p", "p ∧", " ", "(p)", "¬p"]
    let ruleBase : RuleBase := { entries := rules ++ assumptions, answer := "q ∧ r " }
    let other : RuleBase := { entries := assumptions ++ rules, answer := "q ∧ r " }
    (ruleBase.solve {} fun _ => 0).steps =
        [.assumed ⟨"p", true⟩, .skippedAssumption "p ∧" .unexpectedEnd,
          .contradiction .assumption "¬p" ⟨"p", false⟩ true,
          .invalidRuleFormat "p → q → r", .invalidRule "p ∧ → r" .unexpectedEnd,
          .derived "p → q" ⟨"q", true⟩, .contradiction .rule "q → ¬p" ⟨"p", false⟩ true,
          .contradiction .rule "q → ¬p" ⟨"p", false⟩ true, .ended .fixedPoint,
          .invalidAnswer "q ∧ r" .notALiteral] ∧
      (other.solve {} fun _ => 5) = ruleBase.solve {} fun _ => 0 := by
  intro rules assumptions ruleBase other
  have harrows : other.entries.filter Rule.isImplication =
      ruleBase.entries.filter Rule.isImplication := by decide +kernel
  have hothers : other.entries.filter (!Rule.isImplication ·) =
      ruleBase.entries.filter (!Rule.isImplication ·) := by decide +kernel
  have htime : .ended .timeLimit ∉ (ruleBase.solve {} fun _ => 0).steps := by decide +kernel
  have htime' : .ended .timeLimit ∉ (other.solve {} fun _ => 5).steps := by decide +kernel
  obtain ⟨_, _, hshuffled⟩ := solve_phases ruleBase {} fun _ => 0
  exact ⟨by decide +kernel, hshuffled other _ rfl harrows hothers htime htime'⟩

end RuleBase

end ForwardChaining
