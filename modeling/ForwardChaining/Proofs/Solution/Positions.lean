import ForwardChaining.Proofs.Literal.Language
import ForwardChaining.Proofs.Solution.Phases
import ForwardChaining.Proofs.Token.Spacing

namespace ForwardChaining

/-- The number of blanks that a text begins with. -/
def Text.indent (text : String) : Nat :=
  (text.toList.takeWhile isBlank).length

namespace Token

theorem isLeast_place {front : List Char} {c : Char} (hfront : c ∉ front) (back : List Char) :
    IsLeast {place | (front ++ c :: back)[place]? = some c} front.length := by
  have hother : ∀ d ∈ front, ¬ d = c := by
    rintro d hd rfl
    exact hfront hd
  simpa using isLeast_places hother rfl back

/-- A character that cannot be read is reported where the text first has it, and what stands before
    it could be read. -/
theorem exists_of_tokenize_eq_error {text : String} {c : Char} {position : Nat}
    (h : tokenize text = .error (.unexpectedCharacter c position)) :
    isForeign c = true ∧ ∃ front back, text.toList = front ++ c :: back ∧
      front.length = position ∧ ∀ d ∈ front, isForeign d = false := by
  rcases scan_cases 0 text.toList with ⟨_, _, hscan⟩ | ⟨front, d, back, htext, hfront, hd, hscan⟩
  · rw [tokenize, hscan] at h
    cases h
  · rw [tokenize, hscan, Nat.zero_add] at h
    cases h
    exact ⟨hd, front, back, htext, rfl, hfront⟩

theorem not_mem_of_isForeign {c : Char} (hc : isForeign c = true) {chars : List Char}
    (hchars : ∀ d ∈ chars, isForeign d = false) : c ∉ chars := by
  intro hmem
  rw [hchars c hmem] at hc
  cases hc

/-- In a text that was not trimmed a character stands behind the blanks in front as well. -/
theorem tokenize_of_trim_eq_error {text : String} {c : Char} {position : Nat}
    (h : tokenize (Text.trim text) = .error (.unexpectedCharacter c position)) :
    tokenize text = .error (.unexpectedCharacter c (position + Text.indent text)) := by
  rw [tokenize_eq_trim, h]
  rfl

end Token

theorem Formula.tokenize_of_parse_eq_error {text : String} {c : Char} {position : Nat}
    (h : parse text = .error (.unexpectedCharacter c position)) :
    Token.tokenize text = .error (.unexpectedCharacter c position) := by
  rcases ReadError.bind_eq_error_iff.mp h with htokens | ⟨tokens, _, hrefused⟩
  · exact htokens
  · rcases refusal_cases hrefused with ⟨herror, _⟩ | ⟨_, _, _, _, _, hstuck⟩ | ⟨_, _, herror⟩
    · cases herror
    · cases hstuck
    · cases herror

theorem Literal.tokenize_of_parse_eq_error {text : String} {c : Char} {position : Nat}
    (h : parse text = .error (.unexpectedCharacter c position)) :
    Token.tokenize text = .error (.unexpectedCharacter c position) := by
  rcases ReadError.bind_eq_error_iff.mp h with hformula | ⟨formula, _, hrefused⟩
  · exact Formula.tokenize_of_parse_eq_error hformula
  · cases ofFormula_eq_error hrefused

namespace Rule

/-- The number of characters before the trimmed side of a rule that has the character. -/
def sideStart (left right : String) (c : Char) : Nat :=
  if c ∈ left.toList then Text.indent left else left.length + 1 + Text.indent right

theorem sideStart_eq_zero_iff {left right : String} {c : Char} :
    sideStart left right c = 0 ↔ c ∈ left.toList ∧ Text.indent left = 0 := by
  unfold sideStart
  by_cases hleft : c ∈ left.toList
  · simp [hleft]
  · simp [hleft]

section Sides

variable {text left right : String} {c : Char} {position : Nat}

theorem HasSides.isLeast_place_of_premise (hsides : HasSides text left right)
    (hpremise : Formula.parse (Text.trim left) = .error (.unexpectedCharacter c position)) :
    IsLeast {place | text.toList[place]? = some c} (position + sideStart left right c) := by
  have htrimmed := Formula.tokenize_of_parse_eq_error hpremise
  obtain ⟨hc, front, back, hleft, hlength, hfront⟩ :=
    Token.exists_of_tokenize_eq_error (Token.tokenize_of_trim_eq_error htrimmed)
  have htext : text.toList = front ++ c :: (back ++ arrow :: right.toList) := by
    rw [hsides.toList_eq, hleft]
    simp
  have hstart : sideStart left right c = Text.indent left := if_pos (by simp [hleft])
  rw [htext, hstart, ← hlength]
  exact Token.isLeast_place (Token.not_mem_of_isForeign hc hfront) _

theorem HasSides.isLeast_place_of_conclusion (hsides : HasSides text left right)
    {premise : Formula} (hpremise : Formula.parse (Text.trim left) = .ok premise)
    (hconclusion : Literal.parse (Text.trim right) = .error (.unexpectedCharacter c position)) :
    IsLeast {place | text.toList[place]? = some c} (position + sideStart left right c) := by
  have htrimmed := Literal.tokenize_of_parse_eq_error hconclusion
  obtain ⟨hc, front, back, hright, hlength, hfront⟩ :=
    Token.exists_of_tokenize_eq_error (Token.tokenize_of_trim_eq_error htrimmed)
  -- The premise has been read, so that the character is not in it.
  have hleft : c ∉ left.toList := by
    obtain ⟨tokens, htokens, _⟩ := ReadError.bind_eq_ok_iff.mp hpremise
    have hchars := Token.isForeign_of_scan (Token.tokenize_of_trim_ok htokens)
    exact Token.not_mem_of_isForeign hc hchars
  have harrow : c ≠ arrow := by
    rintro rfl
    exact hsides.right_free (by simp [hright])
  have htext : text.toList = (left.toList ++ arrow :: front) ++ c :: back := by
    rw [hsides.toList_eq, hright]
    simp
  have hbefore : c ∉ left.toList ++ arrow :: front := by
    simp [hleft, harrow, Token.not_mem_of_isForeign hc hfront]
  have hplace : position + sideStart left right c = (left.toList ++ arrow :: front).length := by
    rw [sideStart, if_neg hleft, List.length_append, List.length_cons, hlength,
      String.length_toList]
    omega
  rw [htext, hplace]
  exact Token.isLeast_place hbefore back

/-- In a rule a character is reported as many places before the first that has it as there are
    characters before the trimmed side. -/
theorem isLeast_place_of_parse (h : parse text = .error (.unexpectedCharacter c position)) :
    ∃ left right, HasSides text left right ∧
      IsLeast {place | text.toList[place]? = some c} (position + sideStart left right c) := by
  rcases arrow_cases text with ⟨_, herror⟩ | ⟨left, right, hsides⟩ | ⟨_, herror⟩
  · rw [h] at herror
    cases herror
  · refine ⟨left, right, hsides, ?_⟩
    rw [hsides.parse_eq] at h
    rcases ReadError.bind_eq_error_iff.mp h with hpremise | ⟨premise, hpremise, h⟩
    · exact hsides.isLeast_place_of_premise hpremise
    · rcases ReadError.bind_eq_error_iff.mp h with hconclusion | ⟨conclusion, _, h⟩
      · exact hsides.isLeast_place_of_conclusion hpremise hconclusion
      · cases h
  · rw [h] at herror
    cases herror

end Sides

end Rule

/-- A step that tells of an error quotes the text that it is the error of. -/
def Step.TellsError : Step → Prop
  | .skippedAssumption text error | .invalidAnswer text error => Literal.parse text = .error error
  | .invalidRule text error => Rule.parse text = .error error
  | .assumed _ | .repeated _ | .invalidRuleFormat _ | .derived _ _ | .contradiction _ _ _ _
  | .ended _ => True

namespace RuleBase

theorem Prompts.tellsError {ruleBase : RuleBase} {step : Step} (h : ruleBase.Prompts step) :
    step.TellsError := by
  cases h with
  | assumption _ _ hnotes =>
    cases step with
    | skippedAssumption text error =>
      obtain ⟨rfl, hparse⟩ := hnotes
      exact hparse
    | assumed | repeated | contradiction => trivial
    | invalidRuleFormat | invalidRule | derived | invalidAnswer | ended => exact hnotes.elim
  | refusal _ harrow hrefusal =>
    have hrefused := Rule.refusedAs_of_refusal? harrow hrefusal
    unfold Rule.RefusedAs at hrefused
    split at hrefused
    · subst hrefused
      trivial
    · obtain ⟨error, hparse, rfl⟩ := hrefused
      exact hparse
  | turn _ _ _ hturn =>
    cases Rule.stepOn?_eq_some_iff.mp hturn with
    | derived | contradiction => trivial
  | ending hending =>
    subst hending
    trivial
  | answer hrefusal =>
    obtain ⟨error, hparse, rfl⟩ := Literal.answerRefusal?_eq_some_iff.mp hrefusal
    exact hparse

/-- The position in a step on an assumption or on the answer is that of the character in the text
    that the step quotes. In a step on a rule it is counted from the start of the trimmed side that
    has the character. So it is the position in the quoted text exactly if that side is the premise
    and no blank stands before it. -/
theorem steps_place_unexpectedCharacter (ruleBase : RuleBase) (config : Config) (clock : Clock)
    (text : String) (c : Char) (position : Nat) :
    let steps := (ruleBase.solve config clock).steps
    (.skippedAssumption text (.unexpectedCharacter c position) ∈ steps →
      text.toList[position]? = some c) ∧
    (.invalidAnswer text (.unexpectedCharacter c position) ∈ steps →
      text.toList[position]? = some c) ∧
    (.invalidRule text (.unexpectedCharacter c position) ∈ steps →
      ∃ left right, Rule.HasSides text left right ∧
        IsLeast {place | text.toList[place]? = some c}
          (position + Rule.sideStart left right c) ∧
        (text.toList[position]? = some c ↔ c ∈ left.toList ∧ Text.indent left = 0)) := by
  intro steps
  have htells : ∀ step ∈ steps, step.TellsError := fun step hstep =>
    (prompts_of_mem_steps hstep).tellsError
  have hliteral : Literal.parse text = .error (.unexpectedCharacter c position) →
      text.toList[position]? = some c := fun hparse =>
    (Token.tokenize_eq_error_iff.mp (Literal.tokenize_of_parse_eq_error hparse)).2
  refine ⟨fun hstep => hliteral (htells _ hstep), fun hstep => hliteral (htells _ hstep), ?_⟩
  intro hstep
  obtain ⟨left, right, hsides, hleast⟩ := Rule.isLeast_place_of_parse (htells _ hstep)
  refine ⟨left, right, hsides, hleast, ?_⟩
  rw [← @Rule.sideStart_eq_zero_iff left right c]
  constructor
  · intro hplace
    have hle : position + Rule.sideStart left right c ≤ position := hleast.2 hplace
    omega
  · intro hstart
    have hplace := hleast.1
    rwa [hstart, Nat.add_zero] at hplace

/-- The assumption is quoted without its blank, the rule with it. So the low line of ` B_→ C` stands
    at position 2, and is reported at position 1. -/
theorem steps_place_unexpectedCharacter_indented :
    let ruleBase : RuleBase := { entries := [" A_", " B_→ C"], answer := "¬A. " }
    let steps := (ruleBase.solve {} fun _ => 0).steps
    steps = [.skippedAssumption "A_" (.unexpectedCharacter '_' 1),
        .invalidRule " B_→ C" (.unexpectedCharacter '_' 1), .ended .fixedPoint,
        .invalidAnswer "¬A." (.unexpectedCharacter '.' 2)] ∧
      "A_".toList[1]? = some '_' ∧ "¬A.".toList[2]? = some '.' ∧
      ∃ left right, Rule.HasSides " B_→ C" left right ∧
        IsLeast {place | " B_→ C".toList[place]? = some '_'} (1 + Rule.sideStart left right '_') ∧
        (" B_→ C".toList[1]? = some '_' ↔ '_' ∈ left.toList ∧ Text.indent left = 0) := by
  intro ruleBase steps
  have hsteps : steps = [.skippedAssumption "A_" (.unexpectedCharacter '_' 1),
      .invalidRule " B_→ C" (.unexpectedCharacter '_' 1), .ended .fixedPoint,
      .invalidAnswer "¬A." (.unexpectedCharacter '.' 2)] := by decide +kernel
  obtain ⟨hassumption, _, _⟩ :=
    steps_place_unexpectedCharacter ruleBase {} (fun _ => 0) "A_" '_' 1
  obtain ⟨_, hanswer, _⟩ :=
    steps_place_unexpectedCharacter ruleBase {} (fun _ => 0) "¬A." '.' 2
  obtain ⟨_, _, hrule⟩ :=
    steps_place_unexpectedCharacter ruleBase {} (fun _ => 0) " B_→ C" '_' 1
  refine ⟨hsteps, hassumption ?_, hanswer ?_, hrule ?_⟩
  all_goals
    change _ ∈ steps
    rw [hsteps]
    decide

/-- The full stop of `A → B.C` is reported at position 1 of the trimmed conclusion, where the rule
    has a blank. -/
theorem step_misplaces_unexpectedCharacter :
    let ruleBase : RuleBase := { entries := ["A → B.C"], answer := "A" }
    .invalidRule "A → B.C" (.unexpectedCharacter '.' 1) ∈ (ruleBase.solve {} fun _ => 0).steps ∧
      "A → B.C".toList[1]? = some ' ' ∧ "A → B.C".toList[5]? = some '.' := by
  decide +kernel

end RuleBase

end ForwardChaining
