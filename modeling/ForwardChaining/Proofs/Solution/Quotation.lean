import ForwardChaining.Proofs.Formula.Rejection
import ForwardChaining.Proofs.Formula.RoundTrip
import ForwardChaining.Proofs.Literal.Language
import ForwardChaining.Proofs.Rule.RoundTrip
import ForwardChaining.Proofs.Session.Justification
import ForwardChaining.Proofs.Solution.Phases
import ForwardChaining.Proofs.Token.MaximalMunch

namespace ForwardChaining

namespace Text

/-- A text that fits on a line. -/
def IsOneLine (text : String) : Prop :=
  '\n' ∉ text.toList

instance (text : String) : Decidable (IsOneLine text) :=
  inferInstanceAs (Decidable (¬ _))

@[simp] theorem isOneLine_append {text more : String} :
    IsOneLine (text ++ more) ↔ IsOneLine text ∧ IsOneLine more := by
  simp [IsOneLine]

@[simp] theorem isOneLine_toString {text : String} : IsOneLine (toString text) ↔ IsOneLine text :=
  Iff.rfl

@[simp] theorem isOneLine_repr (number : Nat) : IsOneLine number.repr := by
  intro hmem
  rw [Nat.repr_eq_ofList_toDigits, String.toList_ofList] at hmem
  exact absurd (Nat.isDigit_of_mem_toDigits (by decide) (by decide) hmem) (by decide)

theorem IsAtomName.isOneLine {name : String} (h : IsAtomName name) : IsOneLine name := by
  intro hmem
  exact absurd (h.2 '\n' hmem) (by decide +kernel)

theorem isOneLine_spaced {texts : List String} (h : ∀ text ∈ texts, IsOneLine text) :
    IsOneLine (String.intercalate " " texts) := by
  induction texts with
  | nil => exact List.not_mem_nil
  | cons text rest ih =>
    obtain ⟨hfirst, hrest⟩ := List.forall_mem_cons.mp h
    cases rest with
    | nil => simpa using hfirst
    | cons next rest =>
      rw [String.intercalate_cons_cons, isOneLine_append, isOneLine_append]
      exact ⟨⟨hfirst, by decide⟩, ih hrest⟩

end Text

open Text (IsOneLine)

theorem Token.isOneLine_text {token : Token}
    (hname : ∀ name, token = .atom name → Text.IsAtomName name) : IsOneLine token.text := by
  cases token with
  | atom name => exact (hname name rfl).isOneLine
  | leftParen | rightParen | and | or | not => decide

/-- Only a character that is not blank is ever refused. -/
theorem Token.scan_eq_error {position : Nat} {chars : List Char} {error : ReadError}
    (hscan : scan position chars = .error error) :
    ∃ c place, error = .unexpectedCharacter c place ∧ Text.isBlank c = false := by
  rcases scan_cases position chars with ⟨_, tokens, hok⟩ | ⟨front, c, back, _, _, hc, herror⟩
  · rw [hscan] at hok
    cases hok
  · rw [hscan] at herror
    cases herror
    exact ⟨c, _, rfl, (isForeign_iff.mp hc).1⟩

theorem Formula.isOneLine_of_ofTokens {tokens : List Token} {error : ReadError}
    (hnames : ∀ name, .atom name ∈ tokens → Text.IsAtomName name)
    (hparse : ofTokens tokens = .error error) : IsOneLine error.message := by
  have htexts : ∀ token ∈ tokens, IsOneLine token.text := by
    intro token hmem
    exact Token.isOneLine_text fun name hname => hnames name (hname ▸ hmem)
  rcases refusal_cases hparse with ⟨rfl, _⟩ | ⟨due, front, rest, rfl, _, hstuck⟩ |
    ⟨rest, ⟨front, rfl, _⟩, rfl⟩
  · decide
  · cases hstuck with
    | ended | unclosed => decide
    | token token rest hbegins =>
      have htoken : IsOneLine token.text := htexts token (by simp)
      unfold ReadError.message
      simp +decide [htoken]
  · have hrest : IsOneLine (Token.spaced rest) := by
      refine Text.isOneLine_spaced fun text htext => ?_
      obtain ⟨token, htoken, rfl⟩ := List.mem_map.mp htext
      exact htexts token (List.mem_append_right _ htoken)
    unfold ReadError.message
    simp +decide [hrest]

theorem Formula.isOneLine_of_parse {text : String} {error : ReadError}
    (hparse : parse text = .error error) : IsOneLine error.message := by
  rcases ReadError.bind_eq_error_iff.mp hparse with hscan | ⟨tokens, htokens, hparse⟩
  · obtain ⟨c, place, rfl, hblank⟩ := Token.scan_eq_error hscan
    have hc : IsOneLine (toString c) := by
      intro hmem
      obtain rfl : '\n' = c := by simpa [toString] using hmem
      exact absurd hblank (by decide +kernel)
    unfold ReadError.message
    simp +decide [hc]
  · exact isOneLine_of_ofTokens (fun name => Token.isAtomName_of_scan htokens) hparse

theorem Literal.isOneLine_of_parse {text : String} {error : ReadError}
    (hparse : parse text = .error error) : IsOneLine error.message := by
  rcases ReadError.bind_eq_error_iff.mp hparse with hformula | ⟨formula, _, hparse⟩
  · exact Formula.isOneLine_of_parse hformula
  · unfold ofFormula at hparse
    split at hparse
    all_goals cases hparse
    decide

theorem Rule.isOneLine_of_parse {text : String} {error : ReadError}
    (hparse : parse text = .error error) : IsOneLine error.message := by
  rcases ReadError.bind_eq_error_iff.mp hparse with hsides | ⟨⟨left, right⟩, _, hparse⟩
  · unfold sides at hsides
    split at hsides
    · cases hsides
      decide
    · split at hsides
      · cases hsides
        unfold ReadError.message
        simp +decide
      · cases hsides
  · rcases ReadError.bind_eq_error_iff.mp hparse with hpremise | ⟨premise, _, hparse⟩
    · exact Formula.isOneLine_of_parse hpremise
    · rcases ReadError.bind_eq_error_iff.mp hparse with hconclusion | ⟨conclusion, _, hparse⟩
      · exact Literal.isOneLine_of_parse hconclusion
      · cases hparse

@[simp] theorem isOneLine_truthWord (value : Bool) : IsOneLine (truthWord value) := by
  cases value <;> decide

@[simp] theorem Origin.isOneLine_word (origin : Origin) : IsOneLine origin.word := by
  cases origin <;> decide

namespace Step

/-- The text of a rule base that a step quotes, for the steps that quote one. -/
def quoted? : Step → Option String
  | .skippedAssumption text _ | .invalidRuleFormat text | .invalidRule text _ | .derived text _
  | .contradiction _ text _ _ | .invalidAnswer text _ => some text
  | .assumed _ | .repeated _ | .ended _ => none

/-- The atom or the error that a step tells of is one that reading a text can give. -/
def IsReadable : Step → Prop
  | .assumed literal | .repeated literal | .derived _ literal | .contradiction _ _ literal _ =>
    Text.IsAtomName literal.atom
  | .skippedAssumption _ error | .invalidRule _ error | .invalidAnswer _ error =>
    IsOneLine error.message
  | .invalidRuleFormat _ | .ended _ => True

/-- A step fits on a line exactly if the text it quotes does. -/
theorem isOneLine_text_iff {step : Step} (h : step.IsReadable) :
    IsOneLine step.text ↔ ∀ text ∈ step.quoted?, IsOneLine text := by
  cases step with
  | assumed literal | repeated literal =>
    have hatom : IsOneLine literal.atom := Text.IsAtomName.isOneLine h
    unfold text
    simp +decide [quoted?, hatom]
  | derived source literal | contradiction origin source literal existing =>
    have hatom : IsOneLine literal.atom := Text.IsAtomName.isOneLine h
    unfold text
    simp +decide [quoted?, hatom]
  | skippedAssumption quoted error | invalidRule quoted error | invalidAnswer quoted error =>
    have herror : IsOneLine error.message := h
    unfold text
    simp +decide [quoted?, herror]
  | invalidRuleFormat quoted =>
    unfold text
    simp +decide [quoted?]
  | ended outcome => cases outcome <;> simp +decide

/-- The step is about the text: it quotes no other. -/
structure Regards (source : String) (step : Step) : Prop where
  readable : step.IsReadable
  quoted : ∀ text ∈ step.quoted?, text = source

theorem NotesAssumption.regards {facts : Facts} {source : String} {step : Step}
    (h : step.NotesAssumption facts source) : step.Regards source := by
  cases step with
  | assumed literal | repeated literal => exact ⟨Literal.isAtomName_of_parse h.1, nofun⟩
  | contradiction origin quoted literal existing =>
    obtain ⟨_, rfl, hparse, _⟩ := h
    exact ⟨Literal.isAtomName_of_parse hparse, by simp [quoted?]⟩
  | skippedAssumption quoted error =>
    obtain ⟨rfl, hparse⟩ := h
    exact ⟨Literal.isOneLine_of_parse hparse, by simp [quoted?]⟩
  | invalidRuleFormat | invalidRule | derived | invalidAnswer | ended => exact h.elim

end Step

theorem Rule.regards_of_refusal? {text : String} {step : Step}
    (hrefusal : refusal? text = some step) : step.Regards text := by
  obtain ⟨error, hparse, rfl⟩ := refusal?_eq_some_iff.mp hrefusal
  split
  · exact ⟨trivial, by simp [Step.quoted?]⟩
  · exact ⟨isOneLine_of_parse hparse, by simp [Step.quoted?]⟩

theorem Rule.regards_of_stepOn? {text : String} {rule : Rule} (hparse : parse text = .ok rule)
    {facts : Facts} {step : Step} (hstep : rule.stepOn? facts = some step) : step.Regards text := by
  have hatom := isAtomName_of_parse hparse
  have hsource := source_of_parse hparse
  cases stepOn?_eq_some_iff.mp hstep with
  | derived | contradiction => exact ⟨hatom, by simp [Step.quoted?, hsource]⟩

theorem Literal.regards_of_answerRefusal? {answer : String} {step : Step}
    (hrefusal : answerRefusal? answer = some step) : step.Regards (Text.trim answer) := by
  obtain ⟨error, hparse, rfl⟩ := answerRefusal?_eq_some_iff.mp hrefusal
  exact ⟨isOneLine_of_parse hparse, by simp [Step.quoted?]⟩

theorem Facts.exists_learnt_of_mem_replay {steps : List Step} {literal : Literal}
    (hmem : literal ∈ (replay steps).literals) : ∃ step ∈ steps, step.learnt? = some literal := by
  induction steps using List.reverseRecOn with
  | nil => cases hmem
  | append_singleton steps last ih =>
    rw [replay_append_singleton] at hmem
    unfold after at hmem
    have hearlier : literal ∈ (replay steps).literals →
        ∃ step ∈ steps ++ [last], step.learnt? = some literal := by
      intro hold
      obtain ⟨step, hstep, hlearnt⟩ := ih hold
      exact ⟨step, List.mem_append_left _ hstep, hlearnt⟩
    cases hlearnt : last.learnt? with
    | none =>
      rw [hlearnt] at hmem
      exact hearlier hmem
    | some learnt =>
      rw [hlearnt] at hmem
      rcases mem_literals_insert hmem with hold | rfl
      · exact hearlier hold
      · exact ⟨last, List.mem_append_right _ (List.mem_singleton.mpr rfl), hlearnt⟩

theorem Step.IsReadable.isAtomName {step : Step} (h : step.IsReadable) {literal : Literal}
    (hlearnt : step.learnt? = some literal) : Text.IsAtomName literal.atom := by
  cases step with
  | assumed assumption | derived source conclusion =>
    cases hlearnt
    exact h
  | repeated | skippedAssumption | invalidRuleFormat | invalidRule | contradiction | invalidAnswer
  | ended => cases hlearnt

namespace RuleBase

/-- The texts that solving may quote: the answer and the assumptions trimmed, the rules as they
    are. -/
def quotable (ruleBase : RuleBase) : List String :=
  Text.trim ruleBase.answer :: ruleBase.entries.map fun entry =>
    if Rule.isImplication entry then entry else Text.trim entry

theorem mem_quotable_of_isImplication {ruleBase : RuleBase} {entry : String}
    (hmem : entry ∈ ruleBase.entries) (harrow : Rule.isImplication entry = true) :
    entry ∈ ruleBase.quotable :=
  List.mem_cons_of_mem _ (List.mem_map.mpr ⟨entry, hmem, if_pos harrow⟩)

theorem trim_mem_quotable {ruleBase : RuleBase} {entry : String}
    (hmem : entry ∈ ruleBase.entries) (harrow : Rule.isImplication entry = false) :
    Text.trim entry ∈ ruleBase.quotable :=
  List.mem_cons_of_mem _ (List.mem_map.mpr ⟨entry, hmem, by simp [harrow]⟩)

/-- Every step of a solution is about one text of the rule base. -/
theorem regards_of_mem_steps {ruleBase : RuleBase} {config : Config} {clock : Clock} {step : Step}
    (hstep : step ∈ (ruleBase.solve config clock).steps) :
    ∃ text ∈ ruleBase.quotable, step.Regards text := by
  -- An assumption is quoted as it was trimmed, a rule as it is written.
  cases prompts_of_mem_steps hstep with
  | assumption hmem harrow hnotes => exact ⟨_, trim_mem_quotable hmem harrow, hnotes.regards⟩
  | refusal hmem harrow hrefusal =>
    exact ⟨_, mem_quotable_of_isImplication hmem harrow, Rule.regards_of_refusal? hrefusal⟩
  | turn hmem harrow hparse hturn =>
    exact ⟨_, mem_quotable_of_isImplication hmem harrow, Rule.regards_of_stepOn? hparse hturn⟩
  | ending hending =>
    subst hending
    exact ⟨_, List.mem_cons_self, trivial, by simp [Step.quoted?]⟩
  | answer hrefusal => exact ⟨_, List.mem_cons_self, Literal.regards_of_answerRefusal? hrefusal⟩

end RuleBase

end ForwardChaining
