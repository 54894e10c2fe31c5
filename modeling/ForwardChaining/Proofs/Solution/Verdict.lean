import ForwardChaining.CommandLine
import ForwardChaining.Proofs.Session.Solving

namespace ForwardChaining

/-- An answer leaves what the steps before it add up to. -/
theorem Facts.replay_append_answerRefusal (steps : List Step) (answer : String) :
    replay (steps ++ (Literal.answerRefusal? answer).toList) = replay steps := by
  rw [replay, List.foldl_append]
  unfold Literal.answerRefusal?
  cases Literal.parse (Text.trim answer) <;> rfl

/-- Every sentence on a truth value ends in one of two ways. -/
theorem append_truthWord (opening : String) (value : Bool) :
    opening ++ "' is " ++ truthWord value ++ "." =
      if value then opening ++ "' is True." else opening ++ "' is False." := by
  rw [String.append_assoc, String.append_assoc]
  cases value with
  | true =>
    have hwords : "' is " ++ (truthWord true ++ ".") = "' is True." := by decide
    exact congrArg (opening ++ ·) hwords
  | false =>
    have hwords : "' is " ++ (truthWord false ++ ".") = "' is False." := by decide
    exact congrArg (opening ++ ·) hwords

theorem Verdict.sentence_of_value? {verdict : Verdict} {value : Bool}
    (hvalue : verdict.value? = some value) (answer : String) :
    verdict.sentence answer =
      if value then s!"'{answer}' is True." else s!"'{answer}' is False." := by
  rw [sentence, hvalue]
  exact append_truthWord ("'" ++ answer) value

/-- All that a solution tells of the verdict on an answer: as a truth value, in its last step and as
    a sentence. -/
structure Solution.TellsVerdict (solution : Solution) (answer : String) : Prop where
  undefined_iff : solution.isAnswerTrue = none ↔ ∃ error, Literal.parse answer = .error error
  noted_iff : solution.isAnswerTrue = none ↔
    ∃ text error, solution.steps.getLast? = some (.invalidAnswer text error)
  refused : ∀ error, Literal.parse answer = .error error →
    solution.steps.getLast? = some (.invalidAnswer answer error) ∧
      solution.result = "Invalid answer logical statement."
  decided : ∀ literal, Literal.parse answer = .ok literal →
    ∃ value, solution.isAnswerTrue = some value ∧
      (value = true ↔ solution.facts.valueOf literal.atom = some literal.polarity) ∧
      solution.result = if value then s!"'{answer}' is True." else s!"'{answer}' is False."

namespace RuleBase

theorem isAnswerTrue_solve (ruleBase : RuleBase) (config : Config) (clock : Clock) :
    (ruleBase.solve config clock).isAnswerTrue =
      (Verdict.onAnswer (ruleBase.solve config clock).facts
        (Text.trim ruleBase.answer)).value? :=
  Session.isAnswerTrue_solve { config := config } ruleBase clock

theorem result_solve (ruleBase : RuleBase) (config : Config) (clock : Clock) :
    (ruleBase.solve config clock).result =
      (Verdict.onAnswer (ruleBase.solve config clock).facts
        (Text.trim ruleBase.answer)).sentence (Text.trim ruleBase.answer) := by
  rw [solve_eq_solution]
  rfl

theorem getLast?_steps_solve (ruleBase : RuleBase) (config : Config) (clock : Clock) :
    ∃ outcome, (ruleBase.solve config clock).steps.getLast? =
      some ((Literal.answerRefusal? ruleBase.answer).getD (.ended outcome)) := by
  obtain ⟨made, hchained⟩ :=
    Session.chain_chained (Session.load { config := config } ruleBase) clock
  refine ⟨((Session.load { config := config } ruleBase).chain clock).1, ?_⟩
  rw [steps_solve hchained]
  cases Literal.answerRefusal? ruleBase.answer <;> simp

theorem solve_of_refused {ruleBase : RuleBase} (config : Config) (clock : Clock)
    {error : ReadError} (hparse : Literal.parse (Text.trim ruleBase.answer) = .error error) :
    (ruleBase.solve config clock).isAnswerTrue = none ∧
      (ruleBase.solve config clock).steps.getLast? =
        some (.invalidAnswer (Text.trim ruleBase.answer) error) ∧
      (ruleBase.solve config clock).result = "Invalid answer logical statement." := by
  have hverdict : Verdict.onAnswer (ruleBase.solve config clock).facts
      (Text.trim ruleBase.answer) = .undefined := by
    simp only [Verdict.onAnswer, Text.trim_trim, hparse]
  obtain ⟨outcome, hlast⟩ := getLast?_steps_solve ruleBase config clock
  refine ⟨?_, ?_, ?_⟩
  · rw [isAnswerTrue_solve, hverdict]
    rfl
  · simpa [Literal.answerRefusal?, hparse] using hlast
  · rw [result_solve, hverdict]
    rfl

theorem solve_of_decided {ruleBase : RuleBase} (config : Config) (clock : Clock)
    {literal : Literal} (hparse : Literal.parse (Text.trim ruleBase.answer) = .ok literal) :
    ∃ value outcome, (ruleBase.solve config clock).isAnswerTrue = some value ∧
      (ruleBase.solve config clock).steps.getLast? = some (.ended outcome) ∧
      (value = true ↔
        (ruleBase.solve config clock).facts.valueOf literal.atom = some literal.polarity) ∧
      (ruleBase.solve config clock).result =
        if value then s!"'{Text.trim ruleBase.answer}' is True."
        else s!"'{Text.trim ruleBase.answer}' is False." := by
  have hverdict : Verdict.onAnswer (ruleBase.solve config clock).facts
      (Text.trim ruleBase.answer) = .ofFacts (ruleBase.solve config clock).facts literal := by
    simp only [Verdict.onAnswer, Text.trim_trim, hparse]
  have hvalue := Verdict.value?_ofFacts (ruleBase.solve config clock).facts literal
  obtain ⟨outcome, hlast⟩ := getLast?_steps_solve ruleBase config clock
  refine ⟨(ruleBase.solve config clock).facts.valueOf.satisfies literal, outcome, ?_, ?_, ?_, ?_⟩
  · rw [isAnswerTrue_solve, hverdict, hvalue]
  · simpa [Literal.answerRefusal?, hparse] using hlast
  · rw [Valuation.satisfies, beq_iff_eq]
  · rw [result_solve, hverdict, Verdict.sentence_of_value? hvalue]

theorem solve_tellsVerdict (ruleBase : RuleBase) (config : Config) (clock : Clock) :
    (ruleBase.solve config clock).TellsVerdict (Text.trim ruleBase.answer) := by
  cases hparse : Literal.parse (Text.trim ruleBase.answer) with
  | error error =>
    obtain ⟨hvalue, hlast, hresult⟩ := solve_of_refused config clock hparse
    exact {
      undefined_iff := iff_of_true hvalue ⟨error, hparse⟩
      noted_iff := iff_of_true hvalue ⟨_, error, hlast⟩
      refused := by
        intro other hother
        obtain rfl : error = other := by simpa [hparse] using hother
        exact ⟨hlast, hresult⟩
      decided := by
        intro literal hliteral
        simp [hparse] at hliteral }
  | ok literal =>
    obtain ⟨value, outcome, hvalue, hlast, hdecided, hresult⟩ :=
      solve_of_decided config clock hparse
    exact {
      undefined_iff := by simp [hvalue, hparse]
      noted_iff := by simp [hvalue, hlast]
      refused := by
        intro error herror
        simp [hparse] at herror
      decided := by
        intro other hother
        obtain rfl : literal = other := by simpa [hparse] using hother
        exact ⟨value, hvalue, hdecided, hresult⟩ }

/-- What is asked for at the end makes no difference to what was derived before. -/
theorem solve_other_answer {first second : RuleBase} {config : Config} {clock clock' : Clock}
    (hentries : second.entries = first.entries)
    (htime : .ended .timeLimit ∉ (first.solve config clock).steps)
    (htime' : .ended .timeLimit ∉ (second.solve config clock').steps) :
    (second.solve config clock').facts = (first.solve config clock).facts ∧
      ∃ shared,
        (first.solve config clock).steps =
          shared ++ (Literal.answerRefusal? first.answer).toList ∧
        (second.solve config clock').steps =
          shared ++ (Literal.answerRefusal? second.answer).toList := by
  obtain ⟨shared, hfirst, hsecond⟩ := solve_lockstep (by rw [hentries])
    (fun _ _ => by rw [hentries]) htime htime'
  refine ⟨?_, shared, hfirst, hsecond⟩
  rw [facts_solve, facts_solve, hfirst, hsecond, Facts.replay_append_answerRefusal,
    Facts.replay_append_answerRefusal]

end RuleBase

namespace Solution.TellsVerdict

variable {first second : Solution} {answer answer' : String} {literal : Literal}

/-- On the same facts, a literal and its negation are not both true, and both are false only for
    want of a value. -/
theorem negation (h : first.TellsVerdict answer) (h' : second.TellsVerdict answer')
    (hfacts : second.facts = first.facts) (hparse : Literal.parse answer = .ok literal)
    (hparse' : Literal.parse answer' = .ok ⟨literal.atom, !literal.polarity⟩) :
    ¬ (first.isAnswerTrue = some true ∧ second.isAnswerTrue = some true) ∧
      (first.isAnswerTrue = some false ∧ second.isAnswerTrue = some false ↔
        first.facts.valueOf literal.atom = none) := by
  obtain ⟨value, hvalue, hholds, _⟩ := h.decided literal hparse
  obtain ⟨value', hvalue', hholds', _⟩ := h'.decided _ hparse'
  rw [hfacts] at hholds'
  simp only [hvalue, hvalue', Option.some.injEq, ← Bool.not_eq_true, hholds, hholds']
  cases first.facts.valueOf literal.atom with
  | none => simp
  | some existing => cases existing <;> cases literal.polarity <;> simp

end Solution.TellsVerdict

namespace CommandLine

/-- The program is called so that it solves the rule base under these settings. -/
def Solves (arguments : List String) (tree : FileTree) (stdin : RuleBase.Source)
    (config : Config) (ruleBase : RuleBase) : Prop :=
  ∃ job, Job.ofArguments arguments = .ok job ∧ job.config = config ∧
    RuleBase.read (job.arguments.path?.elim stdin tree.source) = .ok ruleBase

theorem exit_run {arguments : List String} {tree : FileTree} {stdin : RuleBase.Source}
    {config : Config} {ruleBase : RuleBase} (h : Solves arguments tree stdin config ruleBase)
    (clock : Clock) :
    (run arguments tree stdin clock).exit =
      exitCode (ruleBase.solve config clock).isAnswerTrue := by
  obtain ⟨job, hjob, rfl, hread⟩ := h
  rw [run, hjob]
  dsimp only
  rw [Job.output, hread]
  rfl

theorem exitCode_eq_iff (verdict : Option Bool) :
    (exitCode verdict = 0 ↔ verdict = some true) ∧ (exitCode verdict = 1 ↔ verdict = some false) ∧
      (exitCode verdict = 2 ↔ verdict = none) := by
  rcases verdict with _ | _ | _ <;> decide

end CommandLine

/-- The verdict is told alike by the truth value, the last step, the sentence and the exit code.
    What answer is asked for shows in nothing but these, and of a literal and its negation at most
    one is true. -/
theorem RuleBase.solve_tells_one_verdict (ruleBase : RuleBase) (config : Config) (clock : Clock) :
    let solution := ruleBase.solve config clock
    solution.TellsVerdict (Text.trim ruleBase.answer) ∧
    (∀ arguments tree stdin, CommandLine.Solves arguments tree stdin config ruleBase →
      let exit := (CommandLine.run arguments tree stdin clock).exit
      (exit = 0 ↔ solution.isAnswerTrue = some true) ∧
        (exit = 1 ↔ solution.isAnswerTrue = some false) ∧
        (exit = 2 ↔ solution.isAnswerTrue = none)) ∧
    ∀ (other : RuleBase) (clock' : Clock), other.entries = ruleBase.entries →
      let second := other.solve config clock'
      .ended .timeLimit ∉ solution.steps → .ended .timeLimit ∉ second.steps →
      second.facts = solution.facts ∧
        (∃ shared,
          solution.steps = shared ++ (Literal.answerRefusal? ruleBase.answer).toList ∧
          second.steps = shared ++ (Literal.answerRefusal? other.answer).toList) ∧
        ∀ literal, Literal.parse (Text.trim ruleBase.answer) = .ok literal →
          Literal.parse (Text.trim other.answer) = .ok ⟨literal.atom, !literal.polarity⟩ →
          ¬ (solution.isAnswerTrue = some true ∧ second.isAnswerTrue = some true) ∧
          (solution.isAnswerTrue = some false ∧ second.isAnswerTrue = some false ↔
            solution.facts.valueOf literal.atom = none) := by
  intro solution
  have htells := solve_tellsVerdict ruleBase config clock
  refine ⟨htells, ?_, ?_⟩
  · intro arguments tree stdin hsolves exit
    have hexit : exit = CommandLine.exitCode solution.isAnswerTrue :=
      CommandLine.exit_run hsolves clock
    rw [hexit]
    exact CommandLine.exitCode_eq_iff solution.isAnswerTrue
  · intro other clock' hentries second htime htime'
    obtain ⟨hfacts, hsteps⟩ := solve_other_answer hentries htime htime'
    refine ⟨hfacts, hsteps, ?_⟩
    intro literal hparse hparse'
    exact htells.negation (solve_tellsVerdict other config clock') hfacts hparse hparse'

/-- `B` follows from `A` and `A → B`, but neither `C` nor its negation does. -/
theorem RuleBase.solve_tells_one_verdict_derived :
    let derived : RuleBase := ⟨[], ["A", "A → B"], " B "⟩
    let valueless : RuleBase := ⟨[], ["A", "A → B"], "C"⟩
    let denied : RuleBase := ⟨[], ["A", "A → B"], "¬C"⟩
    let stdin : RuleBase.Source :=
      ⟨"[[], [\"A\", \"A → B\"], \" B \"]".toUTF8.data.toList, none⟩
    CommandLine.Solves [] ⟨[], []⟩ stdin {} derived ∧
      (CommandLine.run [] ⟨[], []⟩ stdin fun _ => 0).exit = 0 ∧
      (derived.solve {} fun _ => 0).isAnswerTrue = some true ∧
      (derived.solve {} fun _ => 0).result = "'B' is True." ∧
      (valueless.solve {} fun _ => 0).isAnswerTrue = some false ∧
      (valueless.solve {} fun _ => 0).result = "'C' is False." ∧
      (denied.solve {} fun _ => 0).isAnswerTrue = some false := by
  intro derived valueless denied stdin
  have hsolves : CommandLine.Solves [] ⟨[], []⟩ stdin {} derived :=
    ⟨⟨{}, {}⟩, rfl, rfl, by decide +kernel⟩
  obtain ⟨htells, hexit, _⟩ := solve_tells_one_verdict derived {} fun _ => 0
  obtain ⟨value, hvalue, hholds, hresult⟩ := htells.decided ⟨"B", true⟩ (by decide +kernel)
  obtain rfl : value = true := hholds.mpr (by decide +kernel)
  obtain ⟨htells', _, hother⟩ := solve_tells_one_verdict valueless {} fun _ => 0
  obtain ⟨_, _, hnegation⟩ := hother denied (fun _ => 0) rfl (by decide +kernel)
    (by decide +kernel)
  obtain ⟨hasserted, hdenied⟩ :=
    (hnegation ⟨"C", true⟩ (by decide +kernel) (by decide +kernel)).2.mpr (by decide +kernel)
  obtain ⟨value, hvalue', _, hresult'⟩ := htells'.decided ⟨"C", true⟩ (by decide +kernel)
  obtain rfl : value = false := Option.some.inj (hvalue'.symm.trans hasserted)
  have htrim : Text.trim derived.answer = "B" := by decide +kernel
  have htrim' : Text.trim valueless.answer = "C" := by decide +kernel
  rw [htrim] at hresult
  rw [htrim'] at hresult'
  exact ⟨hsolves, (hexit _ _ _ hsolves).1.mpr hvalue, hvalue, hresult, hasserted, hresult',
    hdenied⟩

end ForwardChaining
