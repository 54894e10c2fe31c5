import ForwardChaining.Proofs.Solution.Quotation
import ForwardChaining.Proofs.Solution.Verdict

namespace ForwardChaining

open Text (IsOneLine)

namespace Text

/-- The pieces of a text between its line breaks. What follows the last line break is a piece, even
    if there is nothing. -/
def pieces (text : String) : List (List Char) :=
  text.toList.splitOn '\n'

theorem pieces_of_isOneLine {text : String} (h : IsOneLine text) : pieces text = [text.toList] :=
  List.splitOn_eq_singleton h

theorem length_pieces_pos (text : String) : 0 < (pieces text).length :=
  List.length_pos_of_ne_nil (List.splitOn_ne_nil _ _)

theorem isOneLine_of_length_pieces_le {text : String} (h : (pieces text).length ≤ 1) :
    IsOneLine text := by
  intro hmem
  obtain ⟨before, after, hsplit⟩ := List.append_of_mem hmem
  have hbefore := List.length_pos_of_ne_nil (List.splitOn_ne_nil '\n' before)
  have hafter := List.length_pos_of_ne_nil (List.splitOn_ne_nil '\n' after)
  rw [pieces, hsplit, List.splitOn_append_cons_self, List.length_append] at h
  omega

theorem length_le_length_flatMap_pieces (lines : List String) :
    lines.length ≤ (lines.flatMap pieces).length := by
  induction lines with
  | nil => exact Nat.le_refl 0
  | cons line rest ih =>
    have hline := length_pieces_pos line
    rw [List.flatMap_cons, List.length_append, List.length_cons]
    omega

/-- No more pieces than lines there are, so none of the lines is broken. -/
theorem isOneLine_of_length_flatMap_pieces_le {lines : List String}
    (h : (lines.flatMap pieces).length ≤ lines.length) : ∀ line ∈ lines, IsOneLine line := by
  induction lines with
  | nil => exact List.forall_mem_nil _
  | cons line rest ih =>
    have hline := length_pieces_pos line
    have hrest := length_le_length_flatMap_pieces rest
    rw [List.flatMap_cons, List.length_append, List.length_cons] at h
    refine List.forall_mem_cons.mpr ⟨isOneLine_of_length_pieces_le (by omega), ih (by omega)⟩

theorem flatMap_pieces_of_isOneLine {lines : List String} (h : ∀ line ∈ lines, IsOneLine line) :
    lines.flatMap pieces = lines.map String.toList := by
  induction lines with
  | nil => rfl
  | cons line rest ih =>
    obtain ⟨hline, hrest⟩ := List.forall_mem_cons.mp h
    rw [List.flatMap_cons, pieces_of_isOneLine hline, ih hrest]
    rfl

end Text

namespace CommandLine

open Text (pieces)

theorem pieces_unlines (lines : List String) :
    pieces (unlines lines) = lines.flatMap pieces ++ [[]] := by
  induction lines with
  | nil => rfl
  | cons line rest ih =>
    have htext : (unlines (line :: rest)).toList =
        line.toList ++ '\n' :: (unlines rest).toList := by
      simp [unlines, String.toList_join]
    rw [pieces, htext, List.splitOn_append_cons_self, List.flatMap_cons, List.append_assoc, ← ih]
    rfl

/-- The text is made of lines that begin with what they are: a comment for each step, then the
    valuation, and last the result. -/
def KeepsToPrefixedLines (text : String) (solution : Solution) : Prop :=
  ∃ comments valuation result,
    pieces text = comments ++ [valuation, result, []] ∧
      comments.length = solution.steps.length ∧ (∀ line ∈ comments, "c ".toList <+: line) ∧
      "v ".toList <+: valuation ∧ "s ".toList <+: result

theorem length_solutionLines (solution : Solution) :
    (solutionLines solution).length = solution.steps.length + 2 := by
  simp [solutionLines]

theorem keepsToPrefixedLines_iff (solution : Solution) :
    KeepsToPrefixedLines (unlines (solutionLines solution)) solution ↔
      ∀ line ∈ solutionLines solution, IsOneLine line := by
  constructor
  · rintro ⟨comments, valuation, result, hpieces, hlength, _⟩
    -- The prefixes are there in any case: what tells is how many lines there are.
    apply Text.isOneLine_of_length_flatMap_pieces_le
    have hcount := congrArg List.length hpieces
    rw [pieces_unlines] at hcount
    simp only [List.length_append, List.length_cons, List.length_nil] at hcount
    rw [length_solutionLines]
    omega
  · intro hlines
    refine ⟨solution.steps.map fun step => ("c " ++ step.text).toList,
      ("v " ++ solution.facts.render).toList, ("s " ++ solution.result).toList, ?_, ?_, ?_, ?_, ?_⟩
    · rw [pieces_unlines, Text.flatMap_pieces_of_isOneLine hlines]
      simp [solutionLines]
    · exact List.length_map _
    · intro line hline
      obtain ⟨step, _, rfl⟩ := List.mem_map.mp hline
      exact ⟨step.text.toList, String.toList_append.symm⟩
    · exact ⟨solution.facts.render.toList, String.toList_append.symm⟩
    · exact ⟨solution.result.toList, String.toList_append.symm⟩

end CommandLine

namespace RuleBase

variable (ruleBase : RuleBase) (config : Config) (clock : Clock)

theorem isOneLine_render_facts : IsOneLine (ruleBase.solve config clock).facts.render := by
  refine Text.isOneLine_spaced fun text htext => ?_
  obtain ⟨literal, hliteral, rfl⟩ := List.mem_map.mp htext
  rw [facts_solve] at hliteral
  obtain ⟨step, hstep, hlearnt⟩ := Facts.exists_learnt_of_mem_replay hliteral
  obtain ⟨_, _, hregards⟩ := regards_of_mem_steps hstep
  have hatom : IsOneLine literal.atom := (hregards.readable.isAtomName hlearnt).isOneLine
  unfold Literal.render
  split
  · exact hatom
  · exact Text.isOneLine_append.mpr ⟨by decide, hatom⟩

/-- The result quotes the answer. If it does not, the last step does. -/
theorem isOneLine_result_iff
    (hsteps : ∀ step ∈ (ruleBase.solve config clock).steps,
      ∀ text ∈ step.quoted?, IsOneLine text) :
    IsOneLine (ruleBase.solve config clock).result ↔ IsOneLine (Text.trim ruleBase.answer) := by
  cases hparse : Literal.parse (Text.trim ruleBase.answer) with
  | error error =>
    obtain ⟨_, hlast, hresult⟩ := solve_of_refused config clock hparse
    rw [hresult]
    exact iff_of_true (by decide) (hsteps _ (List.mem_of_getLast? hlast) _ rfl)
  | ok literal =>
    obtain ⟨value, _, _, _, _, hresult⟩ := solve_of_decided config clock hparse
    rw [hresult]
    cases value <;> simp +decide

theorem isOneLine_solutionLines_iff :
    (∀ line ∈ CommandLine.solutionLines (ruleBase.solve config clock), IsOneLine line) ↔
      IsOneLine (Text.trim ruleBase.answer) ∧
        ∀ step ∈ (ruleBase.solve config clock).steps, ∀ text ∈ step.quoted?, IsOneLine text := by
  have hprefixed : ∀ step ∈ (ruleBase.solve config clock).steps,
      IsOneLine ("c " ++ step.text) ↔ ∀ text ∈ step.quoted?, IsOneLine text := by
    intro step hstep
    obtain ⟨_, _, hregards⟩ := regards_of_mem_steps hstep
    rw [Text.isOneLine_append, and_iff_right (by decide), Step.isOneLine_text_iff hregards.readable]
  unfold CommandLine.solutionLines
  rw [List.forall_mem_append, List.forall_mem_map]
  constructor
  · rintro ⟨hcomments, hothers⟩
    have hsteps := fun step hstep => (hprefixed step hstep).mp (hcomments step hstep)
    have hlast : IsOneLine ("s " ++ (ruleBase.solve config clock).result) := hothers _ (by simp)
    exact ⟨(isOneLine_result_iff ruleBase config clock hsteps).mp
      (Text.isOneLine_append.mp hlast).2, hsteps⟩
  · rintro ⟨hanswer, hsteps⟩
    refine ⟨fun step hstep => (hprefixed step hstep).mpr (hsteps step hstep), ?_⟩
    have hresult := (isOneLine_result_iff ruleBase config clock hsteps).mpr hanswer
    simp +decide [isOneLine_render_facts ruleBase config clock, hresult]

end RuleBase

namespace CommandLine

theorem Job.text_report {job : Job} (hjson : job.arguments.json = false)
    (hconclusion : job.arguments.conclusion = false) (ruleBase : RuleBase) (solution : Solution) :
    (job.report ruleBase solution).text = unlines (solutionLines solution) := by
  simp [report, hjson, hconclusion]

/-- A solution is written in prefixed lines exactly if there is no line break in the answer or in a
    text that a step quotes, and then its lines are those of its steps, its facts and its result.
    It is enough that no text of the rule base has one where it is quoted. -/
theorem Job.report_keepsToPrefixedLines_iff (job : Job) (ruleBase : RuleBase) (clock : Clock)
    (hjson : job.arguments.json = false) (hconclusion : job.arguments.conclusion = false) :
    let solution := ruleBase.solve job.config clock
    let text := (job.report ruleBase solution).text
    (KeepsToPrefixedLines text solution ↔
      IsOneLine (Text.trim ruleBase.answer) ∧
        ∀ step ∈ solution.steps, ∀ quoted ∈ step.quoted?, IsOneLine quoted) ∧
    (KeepsToPrefixedLines text solution →
      Text.pieces text = (solutionLines solution).map String.toList ++ [[]]) ∧
    ((∀ quoted ∈ ruleBase.quotable, IsOneLine quoted) → KeepsToPrefixedLines text solution) := by
  intro solution text
  have htext : text = unlines (solutionLines solution) :=
    text_report hjson hconclusion ruleBase solution
  have hlines := ruleBase.isOneLine_solutionLines_iff job.config clock
  rw [htext, keepsToPrefixedLines_iff]
  refine ⟨hlines, ?_, ?_⟩
  · intro honeLine
    rw [pieces_unlines, Text.flatMap_pieces_of_isOneLine honeLine]
  · intro hquotable
    refine hlines.mpr ⟨hquotable _ List.mem_cons_self, ?_⟩
    intro step hstep quoted hquoted
    obtain ⟨source, hsource, hregards⟩ := RuleBase.regards_of_mem_steps hstep
    rw [hregards.quoted quoted hquoted]
    exact hquotable source hsource

/-- Line breaks around an assumption and around the answer are trimmed away. -/
theorem Job.report_keepsToPrefixedLines_trimmed :
    let ruleBase : RuleBase := { entries := ["A\n", "A → B"], answer := "\nB" }
    let solution := ruleBase.solve {} fun _ => 0
    let text := ((⟨{}, {}⟩ : Job).report ruleBase solution).text
    text = "c A = True\nc 'A → B' so B = True\nc End.\nv A B\ns 'B' is True.\n" ∧
      KeepsToPrefixedLines text solution := by
  intro ruleBase solution text
  obtain ⟨_, _, hkeeps⟩ := report_keepsToPrefixedLines_iff ⟨{}, {}⟩ ruleBase (fun _ => 0) rfl rfl
  exact ⟨by decide +kernel, hkeeps (by decide +kernel)⟩

/-- A line break at the end of a rule is quoted as it is, and leaves a line without a prefix. -/
theorem Job.report_breaks_line :
    let ruleBase : RuleBase := { entries := ["A", "A → B\n"], answer := "B" }
    let solution := ruleBase.solve {} fun _ => 0
    let text := ((⟨{}, {}⟩ : Job).report ruleBase solution).text
    text = "c A = True\nc 'A → B\n' so B = True\nc End.\nv A B\ns 'B' is True.\n" ∧
      ¬ KeepsToPrefixedLines text solution := by
  intro ruleBase solution text
  have htext : text = unlines (solutionLines solution) := text_report rfl rfl ruleBase solution
  refine ⟨by decide +kernel, ?_⟩
  rw [htext, keepsToPrefixedLines_iff]
  decide +kernel

end CommandLine

end ForwardChaining
