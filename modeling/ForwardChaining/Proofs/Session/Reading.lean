import ForwardChaining.Proofs.Session.Steps
import ForwardChaining.Session.Solve

namespace ForwardChaining

/-- Whether a step notes an entry that could not be read. -/
def Step.isRefusal : Step → Bool
  | .skippedAssumption _ _ | .invalidRuleFormat _ | .invalidRule _ _ => true
  | _ => false

namespace Literal

/-- The step that notes an entry which cannot be read as an assumption. A blank entry is not
    noted. -/
def refusal? (entry : String) : Option Step :=
  if (Text.trim entry).isEmpty then
    none
  else
    match parse (Text.trim entry) with
    | .ok _ => none
    | .error error => some (.skippedAssumption (Text.trim entry) error)

theorem isRefusal_of_refusal? {entry : String} {step : Step}
    (hrefusal : refusal? entry = some step) : step.isRefusal = true := by
  unfold refusal? at hrefusal
  split at hrefusal
  · cases hrefusal
  · split at hrefusal
    · cases hrefusal
    · cases hrefusal
      rfl

/-- The step that an entry read as an assumption takes on the facts, if it takes one. -/
def entryStep? (config : Config) (entry : String) (facts : Facts) : Option Step :=
  if (Text.trim entry).isEmpty then
    none
  else
    match parse (Text.trim entry) with
    | .ok literal =>
      match facts.standing literal with
      | .fresh => some (.assumed literal)
      | .known => if config.traceDuplicates.value then some (.repeated literal) else none
      | .opposed existing => some (.contradiction .assumption (Text.trim entry) literal existing)
    | .error error => some (.skippedAssumption (Text.trim entry) error)

theorem entryStep?_of_refusal {config : Config} {entry : String} {facts : Facts} {step : Step}
    (hrefusal : refusal? entry = some step) : entryStep? config entry facts = some step := by
  unfold refusal? at hrefusal
  unfold entryStep?
  split at hrefusal
  · cases hrefusal
  · rename_i hblank
    rw [if_neg hblank]
    cases hparse : parse (Text.trim entry) with
    | ok literal => simp [hparse] at hrefusal
    | error error => simpa [hparse] using hrefusal

/-- An entry that is passed over when it is read as an assumption: it is blank, or it gives a value
    that is held already and repetitions are not noted. -/
def PassedOver (config : Config) (entry : String) (facts : Facts) : Prop :=
  Text.trim entry = "" ∨ config.traceDuplicates.value = false ∧
    ∃ literal, parse (Text.trim entry) = .ok literal ∧ facts.valueOf.satisfies literal = true

theorem entryStep?_eq_none_iff {config : Config} {entry : String} {facts : Facts} :
    entryStep? config entry facts = none ↔ PassedOver config entry facts := by
  unfold entryStep? PassedOver
  by_cases hblank : Text.trim entry = ""
  · simp [hblank]
  · rw [if_neg (by simpa [String.isEmpty_iff] using hblank), or_iff_right hblank]
    cases parse (Text.trim entry) with
    | error error => simp
    | ok literal =>
      have hheld : facts.standing literal = .known ↔ facts.valueOf.satisfies literal = true := by
        rw [Facts.standing_eq_known_iff, Valuation.satisfies, beq_iff_eq]
      simp only [Except.ok.injEq, exists_eq_left', ← hheld]
      cases facts.standing literal <;> simp

end Literal

namespace Rule

/-- The step that notes a text which cannot be read as a rule. -/
def refusal? (text : String) : Option Step :=
  match parse text with
  | .ok _ => none
  | .error error =>
    some (if error.isFormat then .invalidRuleFormat text else .invalidRule text error)

theorem refusal?_eq_some_iff {text : String} {step : Step} :
    refusal? text = some step ↔ ∃ error, parse text = .error error ∧
      step = if error.isFormat then .invalidRuleFormat text else .invalidRule text error := by
  unfold refusal?
  cases parse text with
  | ok rule => simp
  | error error =>
    constructor
    · rintro ⟨⟩
      exact ⟨error, rfl, rfl⟩
    · rintro ⟨_, ⟨⟩, rfl⟩
      rfl

theorem isRefusal_of_refusal? {text : String} {step : Step}
    (hrefusal : refusal? text = some step) : step.isRefusal = true := by
  obtain ⟨error, _, rfl⟩ := refusal?_eq_some_iff.mp hrefusal
  split <;> rfl

/-- A text is noted as one that gives no rule, or it gives one. -/
theorem refusal?_eq_none_iff {text : String} :
    refusal? text = none ↔ (ofText? text).isSome = true := by
  unfold refusal? ofText?
  cases parse text <;> simp [Except.toOption]

/-- The rules that entries give, in order. -/
def ofEntries (entries : List String) : List Rule :=
  (entries.filter isImplication).filterMap ofText?

end Rule

/-- The steps of reading the entries of a rule base: what the assumptions do, each to the facts that
    those before it have left, and then the texts that give no rule. -/
def Facts.loadSteps (facts : Facts) (config : Config) (entries : List String) : List Step :=
  facts.stepsBy (Literal.entryStep? config) (entries.filter (!Rule.isImplication ·)) ++
    (entries.filter Rule.isImplication).filterMap Rule.refusal?

namespace Account

def addRules (account : Account) (rules : List Rule) : Account :=
  { account with rules := account.rules ++ rules }

@[simp] theorem rules_addRules (account : Account) (rules : List Rule) :
    (account.addRules rules).rules = account.rules ++ rules := rfl

@[simp] theorem addRules_nil (account : Account) : account.addRules [] = account := by
  rw [addRules, List.append_nil]

theorem addRules_addRules (account : Account) (rules more : List Rule) :
    (account.addRules rules).addRules more = account.addRules (rules ++ more) := by
  simp only [addRules, List.append_assoc]

theorem takeAll_addRules (account : Account) (rules : List Rule) (steps : List Step) :
    (account.addRules rules).takeAll steps = (account.takeAll steps).addRules rules := by
  induction steps generalizing account with
  | nil => rfl
  | cons step rest ih => exact ih (account.take step)

end Account

namespace Session

/-- Reading an assumption takes the one step that it has to take, or none. -/
theorem account_readAssumption (session : Session) (entry : String) :
    (session.readAssumption entry).account =
      (Literal.entryStep? session.config entry session.facts).elim session.account
        session.account.take := by
  unfold readAssumption Literal.entryStep?
  dsimp only
  split
  · rfl
  · cases Literal.parse (Text.trim entry) with
    | error error => rfl
    | ok literal =>
      dsimp only [assume, facts_record, config_record]
      cases session.facts.standing literal with
      | fresh => rfl
      | known =>
        by_cases hnoted : session.config.traceDuplicates.value = true
        · simp only [hnoted]
          rfl
        · simp only [hnoted]
          rfl
      | opposed existing => rfl

/-- Reading an assumption notes nothing exactly if it is passed over. -/
theorem trace_readAssumption_eq_iff {session : Session} {entry : String} :
    (session.readAssumption entry).trace = session.trace ↔
      Literal.PassedOver session.config entry session.facts := by
  rw [← trace_account, ← trace_account, account_readAssumption, ← Literal.entryStep?_eq_none_iff]
  cases Literal.entryStep? session.config entry session.facts with
  | none => exact iff_of_true rfl rfl
  | some step => simp [Account.take]

/-- What a session goes by, and no reading changes. -/
def settings (session : Session) : Config × Option Interrupt :=
  (session.config, session.interrupt)

theorem settings_eq_iff {first second : Session} : first.settings = second.settings ↔
    first.config = second.config ∧ first.interrupt = second.interrupt :=
  Prod.ext_iff

theorem settings_readAssumption (session : Session) (entry : String) :
    (session.readAssumption entry).settings = session.settings := by
  unfold readAssumption assume
  dsimp only
  split
  · rfl
  · split
    · split
      · rfl
      · split <;> rfl
      · rfl
    · rfl

theorem settings_readRule (session : Session) (text : String) :
    (session.readRule text).settings = session.settings := by
  unfold readRule
  dsimp only
  split <;> rfl

theorem settings_load (session : Session) (ruleBase : RuleBase) :
    (session.load ruleBase).settings = session.settings :=
  (foldl_keeps settings settings_readRule _ _).trans
    (foldl_keeps settings settings_readAssumption _ session)

theorem config_readAssumptions (session : Session) (entries : List String) :
    (session.readAssumptions entries).config = session.config :=
  congrArg Prod.fst (foldl_keeps settings settings_readAssumption _ session)

theorem account_readAssumptions (session : Session) (entries : List String) :
    (session.readAssumptions entries).account = session.account.takeAll
      (session.facts.stepsBy (Literal.entryStep? session.config)
        (entries.filter (!Rule.isImplication ·))) :=
  account_foldl (fun _ _ => (settings_eq_iff.mp (settings_readAssumption _ _)).1)
    account_readAssumption _ session

/-- Skipping an entry is the same as taking the step that notes it. -/
theorem account_skip_note (session : Session) (topic : Log.Topic) (text : String)
    (error : ReadError) {step : Step} (hrefusal : step.isRefusal = true) :
    ((session.skip topic text error).note step).account = session.account.take step := by
  cases step with
  | skippedAssumption text error => rfl
  | invalidRuleFormat text => rfl
  | invalidRule text error => rfl
  | _ => cases hrefusal

/-- A text gives a rule, or it is noted as one that gives none. -/
theorem account_readRule (session : Session) (text : String) :
    (session.readRule text).account =
      (session.account.takeAll (Rule.refusal? text).toList).addRules
        (Rule.ofText? text).toList := by
  unfold readRule Rule.refusal? Rule.ofText?
  dsimp only
  cases Rule.parse text with
  | ok rule => rfl
  | error error =>
    change _ = (session.account.take _).addRules []
    rw [Account.addRules_nil]
    refine account_skip_note (session.record (Log.ofRule text)) .rules text error ?_
    split <;> rfl

theorem account_readRules (session : Session) (entries : List String) :
    (session.readRules entries).account =
      (session.account.takeAll
        ((entries.filter Rule.isImplication).filterMap Rule.refusal?)).addRules
        (Rule.ofEntries entries) := by
  unfold readRules Rule.ofEntries
  generalize entries.filter Rule.isImplication = texts
  induction texts generalizing session with
  | nil => exact session.account.addRules_nil.symm
  | cons text rest ih =>
    rw [List.foldl_cons, ih, account_readRule, Account.takeAll_addRules, ← Account.takeAll_append,
      Account.addRules_addRules]
    cases hrefusal : Rule.refusal? text <;> cases hrule : Rule.ofText? text <;>
      simp [hrefusal, hrule]

/-- All that loading a rule base does: the steps of reading its entries, and the rules they give. -/
theorem account_load (session : Session) (ruleBase : RuleBase) :
    (session.load ruleBase).account =
      (session.account.takeAll (session.facts.loadSteps session.config ruleBase.entries)).addRules
        (Rule.ofEntries ruleBase.entries) := by
  rw [load, account_readRules, account_readAssumptions, ← Account.takeAll_append]
  rfl

theorem facts_load (session : Session) (ruleBase : RuleBase) :
    (session.load ruleBase).facts =
      session.facts.afterAll (session.facts.loadSteps session.config ruleBase.entries) :=
  (congrArg Account.facts (session.account_load ruleBase)).trans (session.account.facts_takeAll _)

theorem rules_load (session : Session) (ruleBase : RuleBase) :
    (session.load ruleBase).rules = session.rules ++ Rule.ofEntries ruleBase.entries := by
  change (session.load ruleBase).account.rules = session.account.rules ++ _
  rw [account_load, Account.rules_addRules, Account.rules_takeAll]

end Session

end ForwardChaining
