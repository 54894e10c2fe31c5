import ForwardChaining.Proofs.Literal.Language
import ForwardChaining.Proofs.RuleBase.Labels
import ForwardChaining.Proofs.Solution.Verdict
import ForwardChaining.Proofs.Token.Spacing

namespace ForwardChaining

/-- Blanks around a text do not keep it from being read as the literal that it spells. -/
theorem Literal.parse_of_parse_trim {text : String} {literal : Literal}
    (hparse : parse (Text.trim text) = .ok literal) : parse text = .ok literal := by
  obtain ⟨tokens, htokens, hspelled⟩ := parse_eq_ok_iff_isSpelled.mp hparse
  exact parse_eq_ok_iff_isSpelled.mpr ⟨tokens, Token.tokenize_of_trim_ok htokens, hspelled⟩

/-- The verdict on a literal, turned round for a negated one, is the value of its atom. Where the
    atom has none it is the value that the literal denies. -/
theorem Valuation.satisfies_bne_not (valuation : Valuation) (literal : Literal) :
    (valuation.satisfies literal != !literal.polarity) =
      (valuation literal.atom).getD (!literal.polarity) := by
  unfold satisfies
  generalize valuation literal.atom = value
  cases literal.polarity <;> rcases value with _ | _ | _ <;> rfl

namespace Solution

/-- The text is the label that the literal has as its atom, or a negation glyph, any blanks and that
    label. -/
inductive Names : String → Literal → Prop where
  | asserted (label : String) : Names label ⟨label, true⟩
  | denied {gap : String} (label : String) (hgap : ∀ c ∈ gap.toList, Text.isBlank c = true) :
      Names ("¬" ++ gap ++ label) ⟨label, false⟩

section Reading

variable {answer : String} {literal : Literal}

/-- What an answer is taken to be about is what it names. -/
theorem names_labelOf (answer : String) :
    Names (Text.trim answer) ⟨(labelOf answer).1, !(labelOf answer).2⟩ := by
  unfold labelOf
  split
  · rename_i rest hanswer
    obtain ⟨trail, hrest, htrail⟩ := Text.exists_trimChars rest
    -- The answer has been trimmed, so that nothing is trimmed from its end a second time.
    have hnil : trail = [] := by
      by_contra hne
      have hlast : (Text.trimChars answer.toList).getLast? = some (trail.getLast hne) := by
        rw [Text.trim, String.toList_ofList] at hanswer
        rw [hanswer, hrest, ← List.cons_append, List.getLast?_append_of_ne_nil _ hne,
          List.getLast?_eq_some_getLast hne]
      have hblank := htrail _ (List.getLast_mem hne)
      rw [Text.isBlank_of_getLast?_trimChars hlast] at hblank
      cases hblank
    rw [hnil, List.append_nil] at hrest
    have htext : Text.trim answer =
        "¬" ++ String.ofList (rest.takeWhile Text.isBlank) ++ Text.trim (String.ofList rest) := by
      apply String.toList_injective
      rw [hanswer]
      simpa [Text.trim] using hrest
    have hgap : ∀ c ∈ (String.ofList (rest.takeWhile Text.isBlank)).toList,
        Text.isBlank c = true := by
      rw [String.toList_ofList]
      exact fun c => List.mem_takeWhile_imp
    rw [htext]
    exact .denied (Text.trim (String.ofList rest)) hgap
  · exact .asserted _

/-- An answer that names a literal is taken to be about its atom. -/
theorem labelOf_of_names (hnames : Names (Text.trim answer) literal)
    (hatom : Text.IsAtomName literal.atom) :
    labelOf answer = (literal.atom, !literal.polarity) := by
  generalize htext : Text.trim answer = text at hnames
  unfold labelOf
  rw [htext]
  cases hnames with
  | asserted label =>
    split
    · rename_i rest hlabel
      have hglyph := hatom.2 '¬' (by simp [hlabel])
      exact absurd hglyph (by decide +kernel)
    · rfl
  | @denied gap label hgap =>
    have hword : ∀ c ∈ label.toList, Text.isBlank c = false := fun c hc =>
      Text.isBlank_of_isAlphanumeric (hatom.2 c hc)
    have htrim : Text.trim (String.ofList (gap.toList ++ label.toList)) = label := by
      rw [Text.trim, String.toList_ofList, Text.trimChars_blanks_append hgap hword,
        String.ofList_toList]
    have hchars : ("¬" ++ gap ++ label).toList = '¬' :: (gap.toList ++ label.toList) := by simp
    rw [hchars]
    exact congrArg (·, true) htrim

/-- An answer that names a literal is read as that literal. -/
theorem parse_of_names {text : String} (hnames : Names text literal)
    (hatom : Text.IsAtomName literal.atom) : Literal.parse text = .ok literal := by
  apply Literal.parse_eq_ok_iff_isSpelled.mpr
  cases hnames with
  | asserted =>
    exact ⟨[.atom text], Token.scans_atomName hatom 0,
      @Literal.IsSpelled.positive 0 text (by decide)⟩
  | @denied gap label hgap =>
    have hlayout : Token.IsLayout "" [(.not, gap), (.atom label, "")] := {
      names := by simpa using hatom
      lead_blank := by simp
      gaps_blank := by simpa using hgap
      parted := by simp [Token.isAtom] }
    have htokens := Token.tokenize_laidOut hlayout
    refine ⟨[.not, .atom label], ?_, @Literal.IsSpelled.negative 0 0 label (by decide)⟩
    simpa [Token.laidOut, Token.text, String.join] using htokens

/-- A literal on a label is named as it is written. -/
theorem names_render_ofIndex (index : Nat) (polarity : Bool) :
    Names (Text.trim (Literal.render ⟨Label.ofIndex index, polarity⟩))
      ⟨Label.ofIndex index, polarity⟩ := by
  have hlabel : ∀ c ∈ (Label.ofIndex index).toList, Text.isBlank c = false := fun c hc =>
    Text.isBlank_of_isAlphanumeric ((Label.isAtomName_ofIndex index).2 c hc)
  cases polarity with
  | true =>
    change Names (Text.trim (Label.ofIndex index)) _
    rw [Text.trim_of_unblank hlabel]
    exact .asserted _
  | false =>
    change Names (Text.trim ("¬" ++ Label.ofIndex index)) _
    have hglyph : Text.isBlank '¬' = false := by decide +kernel
    have hanswer : ∀ c ∈ ("¬" ++ Label.ofIndex index).toList, Text.isBlank c = false := by
      simpa [hglyph] using hlabel
    rw [Text.trim_of_unblank hanswer, ← String.append_empty (s := "¬")]
    exact .denied _ (by simp)

end Reading

/-- The sentence that a conclusion is. -/
def sentenceOn (statement : String) (value : Bool) : String :=
  if value then s!"The statement '{statement}' is True."
  else s!"The statement '{statement}' is False."

theorem conclusion_eq_some_iff {solution : Solution} {ruleBase : RuleBase} {sentence : String} :
    solution.conclusion ruleBase = some sentence ↔ ∃ verdict statement,
      solution.isAnswerTrue = some verdict ∧
      ruleBase.statement? (labelOf ruleBase.answer).1 = some statement ∧
      sentenceOn statement (verdict != (labelOf ruleBase.answer).2) = sentence := by
  have hwords : ∀ statement value,
      s!"The statement '{statement}' is {truthWord value}." = sentenceOn statement value :=
    fun statement => append_truthWord ("The statement '" ++ statement)
  unfold conclusion conclusionOn
  generalize labelOf ruleBase.answer = reading
  obtain ⟨label, negated⟩ := reading
  simp only [hwords, Option.bind_eq_bind, Option.bind_eq_some_iff, Option.pure_def,
    Option.some.injEq]
  constructor
  · rintro ⟨verdict, hverdict, statement, hstatement, hsentence⟩
    exact ⟨verdict, statement, hverdict, hstatement, hsentence⟩
  · rintro ⟨verdict, statement, hverdict, hstatement, hsentence⟩
    exact ⟨verdict, hverdict, statement, hstatement, hsentence⟩

theorem sentenceOn_injective (statement : String) : Function.Injective (sentenceOn statement) := by
  have hdiffer : sentenceOn statement true ≠ sentenceOn statement false := by
    intro hsame
    have hwords : "' is True." = "' is False." := (String.append_right_inj _).mp hsame
    exact absurd hwords (by decide)
  intro value other hsame
  cases value <;> cases other
  · rfl
  · exact absurd hsame.symm hdiffer
  · exact absurd hsame hdiffer
  · rfl

end Solution

open Solution (Names sentenceOn)

namespace Session

/-- A statement without a value is called false if it is asserted and true if it is denied. -/
theorem conclusion_solve_of_names (session : Session) {ruleBase : RuleBase} (clock : Clock)
    {index : Nat} {statement : String} {polarity : Bool}
    (hstatement : ruleBase.statements[index]? = some statement)
    (hnames : Names (Text.trim ruleBase.answer) ⟨Label.ofIndex index, polarity⟩) :
    (session.solve ruleBase clock).1.conclusion ruleBase = some (sentenceOn (Label.strip statement)
      (((session.solve ruleBase clock).1.facts.valueOf (Label.ofIndex index)).getD
        (!polarity))) := by
  have hatom := Label.isAtomName_ofIndex index
  have hlabel := Solution.labelOf_of_names hnames hatom
  have hparse := Solution.parse_of_names hnames hatom
  have hverdict := isAnswerTrue_solve session ruleBase clock
  rw [Verdict.value?_onAnswer (by rwa [Text.trim_trim])] at hverdict
  have hfound : ruleBase.statement? (Solution.labelOf ruleBase.answer).1 =
      some (Label.strip statement) := by
    rw [hlabel]
    exact RuleBase.statement?_eq_some_iff.mpr ⟨index, statement, hstatement, rfl, rfl⟩
  rw [Solution.conclusion_eq_some_iff]
  refine ⟨_, _, hverdict, hfound, ?_⟩
  rw [hlabel]
  exact congrArg (sentenceOn _) (Valuation.satisfies_bne_not _ ⟨Label.ofIndex index, polarity⟩)

/-- There is a conclusion exactly if the answer names a statement's label, or negates it. The answer
    is then read as that label or its negation, and the conclusion is on the statement at the
    label's position. It calls an asserted statement true if the facts do, and a denied one unless
    the facts call it false. -/
theorem solve_concludes_on_named_statement (session : Session) (ruleBase : RuleBase)
    (clock : Clock) :
    let solution := (session.solve ruleBase clock).1
    ((solution.conclusion ruleBase).isSome = true ↔
      ∃ index < ruleBase.statements.length, ∃ polarity,
        Names (Text.trim ruleBase.answer) ⟨Label.ofIndex index, polarity⟩) ∧
    ∀ (index : Nat) (statement : String) (polarity : Bool),
      ruleBase.statements[index]? = some statement →
      Names (Text.trim ruleBase.answer) ⟨Label.ofIndex index, polarity⟩ →
      Literal.parse ruleBase.answer = .ok ⟨Label.ofIndex index, polarity⟩ ∧
      Literal.parse (Text.trim ruleBase.answer) = .ok ⟨Label.ofIndex index, polarity⟩ ∧
      (solution.conclusion ruleBase =
          some s!"The statement '{Label.strip statement}' is True." ∨
        solution.conclusion ruleBase =
          some s!"The statement '{Label.strip statement}' is False.") ∧
      (solution.conclusion ruleBase =
          some s!"The statement '{Label.strip statement}' is True." ↔
        if polarity then solution.facts.valueOf (Label.ofIndex index) = some true
        else solution.facts.valueOf (Label.ofIndex index) ≠ some false) := by
  intro solution
  refine ⟨⟨?_, ?_⟩, ?_⟩
  · intro hsome
    obtain ⟨sentence, hconclusion⟩ := Option.isSome_iff_exists.mp hsome
    obtain ⟨_, _, _, hfound, _⟩ := Solution.conclusion_eq_some_iff.mp hconclusion
    obtain ⟨index, statement, hstatement, hlabel, _⟩ := RuleBase.statement?_eq_some_iff.mp hfound
    have hnames := Solution.names_labelOf ruleBase.answer
    rw [← hlabel] at hnames
    exact ⟨index, (List.getElem?_eq_some_iff.mp hstatement).1, _, hnames⟩
  · rintro ⟨index, hindex, polarity, hnames⟩
    have hconclusion := conclusion_solve_of_names session clock (List.getElem?_eq_getElem hindex)
      hnames
    exact Option.isSome_iff_exists.mpr ⟨_, hconclusion⟩
  · intro index statement polarity hstatement hnames
    have hparse := Solution.parse_of_names hnames (Label.isAtomName_ofIndex index)
    have hsentence : ∀ value, solution.conclusion ruleBase =
        some (sentenceOn (Label.strip statement) value) ↔
          (solution.facts.valueOf (Label.ofIndex index)).getD (!polarity) = value := by
      intro value
      rw [conclusion_solve_of_names session clock hstatement hnames, Option.some.injEq,
        (Solution.sentenceOn_injective _).eq_iff]
    refine ⟨Literal.parse_of_parse_trim hparse, hparse, ?_, (hsentence true).trans ?_⟩
    · exact (Bool.eq_false_or_eq_true _).imp (hsentence true).mpr (hsentence false).mpr
    · cases polarity with
      | true => simp [Option.getD_eq_iff]
      | false => cases solution.facts.valueOf (Label.ofIndex index) <;> simp

/-- The 27th statement is labelled `AA`, whatever it is written with. It is called true for an
    answer that asserts it and false for one that denies it, if that is what the facts say. -/
theorem solve_concludes_on_named_statement_rain :
    let statements := List.replicate 26 "" ++ ["Z9. It rains. Really."]
    let asserted : RuleBase := ⟨statements, ["AA"], "AA "⟩
    let denied : RuleBase := ⟨statements, ["¬AA"], " ¬\t AA\n"⟩
    Names (Text.trim asserted.answer) ⟨"AA", true⟩ ∧
      Literal.parse asserted.answer = .ok ⟨"AA", true⟩ ∧
      (Session.solve {} asserted fun _ => 0).1.conclusion asserted =
        some "The statement 'It rains. Really.' is True." ∧
      Names (Text.trim denied.answer) ⟨"AA", false⟩ ∧
      Literal.parse denied.answer = .ok ⟨"AA", false⟩ ∧
      (Session.solve {} denied fun _ => 0).1.conclusion denied =
        some "The statement 'It rains. Really.' is False." := by
  intro statements asserted denied
  have hlabel : Label.ofIndex 26 = "AA" := by decide +kernel
  have hstrip : Label.strip "Z9. It rains. Really." = "It rains. Really." := by decide +kernel
  have hasserted : Names (Text.trim asserted.answer) ⟨Label.ofIndex 26, true⟩ := by
    have htrim : Text.trim asserted.answer = Label.ofIndex 26 := by decide +kernel
    rw [htrim]
    exact .asserted _
  have hdenied : Names (Text.trim denied.answer) ⟨Label.ofIndex 26, false⟩ := by
    have htrim : Text.trim denied.answer = "¬" ++ "\t " ++ Label.ofIndex 26 := by decide +kernel
    have hblanks : Text.isBlank '\t' = true ∧ Text.isBlank ' ' = true := by decide +kernel
    rw [htrim]
    exact .denied _ (by simpa using hblanks)
  obtain ⟨_, hconcludes⟩ := solve_concludes_on_named_statement {} asserted fun _ => 0
  obtain ⟨hparse, _, _, htrue⟩ := hconcludes 26 "Z9. It rains. Really." true rfl hasserted
  obtain ⟨_, hconcludes⟩ := solve_concludes_on_named_statement {} denied fun _ => 0
  obtain ⟨hparse', _, hsentence, htrue'⟩ := hconcludes 26 "Z9. It rains. Really." false rfl hdenied
  rw [hlabel] at hparse hparse' hasserted hdenied htrue htrue'
  rw [hstrip] at hsentence htrue htrue'
  refine ⟨hasserted, hparse, htrue.mpr (by decide +kernel), hdenied, hparse', ?_⟩
  exact hsentence.resolve_left fun hsame => htrue'.mp hsame (by decide +kernel)

end Session

namespace RuleBase

theorem conclusion_solve_of_names {ruleBase : RuleBase} (config : Config) (clock : Clock)
    {index : Nat} {statement : String} {polarity : Bool}
    (hstatement : ruleBase.statements[index]? = some statement)
    (hnames : Names (Text.trim ruleBase.answer) ⟨Label.ofIndex index, polarity⟩) :
    (ruleBase.solve config clock).conclusion ruleBase = some (sentenceOn (Label.strip statement)
      (((ruleBase.solve config clock).facts.valueOf (Label.ofIndex index)).getD (!polarity))) :=
  Session.conclusion_solve_of_names { config := config } clock hstatement hnames

/-- Whether a statement is asserted or denied makes no difference to the conclusion on it exactly if
    the facts give its label a value. Of a statement without one the conclusion is that it is false
    if it is asserted, but that it is true if it is denied. -/
theorem conclusions_agree_iff_valued (statements entries : List String) (config : Config)
    (clock clock' : Clock) (index : Nat) (statement : String) :
    let label := Label.ofIndex index
    let asserted : RuleBase := ⟨statements, entries, label⟩
    let denied : RuleBase := ⟨statements, entries, "¬" ++ label⟩
    let first := asserted.solve config clock
    let second := denied.solve config clock'
    statements[index]? = some statement →
    .ended .timeLimit ∉ first.steps → .ended .timeLimit ∉ second.steps →
    (first.conclusion asserted = second.conclusion denied ↔
      ∃ value, first.facts.valueOf label = some value) ∧
    (∀ value, first.facts.valueOf label = some value →
      first.conclusion asserted = some (sentenceOn (Label.strip statement) value) ∧
        second.conclusion denied = some (sentenceOn (Label.strip statement) value)) ∧
    (first.facts.valueOf label = none →
      first.conclusion asserted = some (sentenceOn (Label.strip statement) false) ∧
        second.conclusion denied = some (sentenceOn (Label.strip statement) true)) := by
  intro label asserted denied first second hstatement htime htime'
  have hfacts : second.facts = first.facts :=
    (@solve_other_answer asserted denied config clock clock' rfl htime htime').1
  have hasserted : Names (Text.trim asserted.answer) ⟨label, true⟩ :=
    Solution.names_render_ofIndex index true
  have hdenied : Names (Text.trim denied.answer) ⟨label, false⟩ :=
    Solution.names_render_ofIndex index false
  have hfirst : first.conclusion asserted =
      some (sentenceOn (Label.strip statement) ((first.facts.valueOf label).getD false)) :=
    (conclusion_solve_of_names config clock hstatement hasserted :)
  have hsecond : second.conclusion denied =
      some (sentenceOn (Label.strip statement) ((second.facts.valueOf label).getD true)) :=
    (conclusion_solve_of_names config clock' hstatement hdenied :)
  clear_value first second
  rw [hfirst, hsecond, hfacts]
  refine ⟨?_, ?_, ?_⟩
  · rw [Option.some.injEq, (Solution.sentenceOn_injective _).eq_iff]
    cases first.facts.valueOf label <;> simp
  · intro value hvalue
    simp [hvalue]
  · intro hvalue
    simp [hvalue]

/-- The ground is not wet, whether that is asserted or denied. -/
theorem conclusions_agree_iff_valued_wet :
    let statements := ["A. It rains.", "B. The ground is wet."]
    let asserted : RuleBase := ⟨statements, ["A", "A → ¬B"], "B"⟩
    let denied : RuleBase := ⟨statements, ["A", "A → ¬B"], "¬B"⟩
    (asserted.solve {} fun _ => 0).conclusion asserted =
        some "The statement 'The ground is wet.' is False." ∧
      (denied.solve {} fun _ => 5).conclusion denied =
        some "The statement 'The ground is wet.' is False." := by
  intro statements asserted denied
  have hlabel : Label.ofIndex 1 = "B" := by decide +kernel
  have hagree := conclusions_agree_iff_valued statements ["A", "A → ¬B"] {} (fun _ => 0)
    (fun _ => 5) 1 "B. The ground is wet."
  rw [hlabel] at hagree
  obtain ⟨_, hvalued, _⟩ := hagree rfl (by decide +kernel) (by decide +kernel)
  obtain ⟨hasserted, hdenied⟩ := hvalued false (by decide +kernel)
  exact ⟨hasserted.trans (by decide +kernel), hdenied.trans (by decide +kernel)⟩

/-- Nothing is known of the rain, and still it is concluded that it rains if that is denied. -/
theorem conclusions_differ_on_rain :
    let asserted : RuleBase := ⟨["It rains."], [], "A"⟩
    let denied : RuleBase := ⟨["It rains."], [], "¬A"⟩
    Label.ofIndex 0 = "A" ∧
      (asserted.solve {} fun _ => 0).conclusion asserted =
        some "The statement 'It rains.' is False." ∧
      (denied.solve {} fun _ => 0).conclusion denied =
        some "The statement 'It rains.' is True." ∧
      (asserted.solve {} fun _ => 0).conclusion asserted ≠
        (denied.solve {} fun _ => 0).conclusion denied := by
  decide +kernel

end RuleBase

end ForwardChaining
