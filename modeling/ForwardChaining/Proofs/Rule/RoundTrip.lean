import ForwardChaining.Proofs.Literal.Language
import ForwardChaining.Proofs.Rule.Format
import ForwardChaining.Proofs.Token.Spacing

namespace ForwardChaining.Rule

section Arrows

variable {text left right : String}

theorem parse_eq_noImplication_iff :
    parse text = .error .noImplication ↔ arrow ∉ text.toList := by
  rw [← List.count_eq_zero]
  rcases arrow_cases text with ⟨hcount, hparse⟩ | ⟨left, right, hsides⟩ | ⟨hcount, hparse⟩
  · exact iff_of_true hparse hcount
  · refine iff_of_false (fun hparse => ?_) (by rw [hsides.count_arrow]; decide)
    cases hsides.parse_formatFree _ hparse
  · refine iff_of_false (fun hparse' => ?_) (by omega)
    rw [hparse] at hparse'
    cases hparse'

theorem parse_eq_multipleImplications_iff {count : Nat} :
    parse text = .error (.multipleImplications count) ↔
      2 ≤ count ∧ text.toList.count arrow = count := by
  rcases arrow_cases text with ⟨hcount, hparse⟩ | ⟨left, right, hsides⟩ | ⟨hcount, hparse⟩
  · rw [hparse]
    exact iff_of_false nofun (by omega)
  · have hcount := hsides.count_arrow
    refine iff_of_false (fun hparse => ?_) (by omega)
    cases hsides.parse_formatFree _ hparse
  · rw [hparse]
    constructor
    · intro h
      cases h
      exact ⟨hcount, rfl⟩
    · rintro ⟨_, rfl⟩
      rfl

theorem HasSides.parse_eq_ok_iff (h : HasSides text left right) {rule : Rule} :
    parse text = .ok rule ↔ Formula.parse (Text.trim left) = .ok rule.premise ∧
      Literal.parse (Text.trim right) = .ok rule.conclusion ∧ rule.source = text := by
  rw [h.parse_eq, ReadError.bind_eq_ok_iff]
  constructor
  · rintro ⟨premise, hpremise, hrest⟩
    obtain ⟨conclusion, hconclusion, hrule⟩ := ReadError.bind_eq_ok_iff.mp hrest
    cases hrule
    exact ⟨hpremise, hconclusion, rfl⟩
  · rintro ⟨hpremise, hconclusion, hsource⟩
    refine ⟨rule.premise, hpremise, ReadError.bind_eq_ok_iff.mpr ⟨rule.conclusion, hconclusion, ?_⟩⟩
    rw [← hsource]
    rfl

theorem parse_eq_ok_iff {rule : Rule} :
    parse text = .ok rule ↔ ∃ left right, HasSides text left right ∧
      Formula.parse (Text.trim left) = .ok rule.premise ∧
      Literal.parse (Text.trim right) = .ok rule.conclusion ∧ rule.source = text := by
  constructor
  · intro hparse
    rcases arrow_cases text with ⟨_, herror⟩ | ⟨left, right, hsides⟩ | ⟨_, herror⟩
    · rw [hparse] at herror
      cases herror
    · exact ⟨left, right, hsides, hsides.parse_eq_ok_iff.mp hparse⟩
    · rw [hparse] at herror
      cases herror
  · rintro ⟨left, right, hsides, hread⟩
    exact hsides.parse_eq_ok_iff.mpr hread

theorem isAtomName_of_parse {rule : Rule} (hparse : parse text = .ok rule) :
    Text.IsAtomName rule.conclusion.atom := by
  obtain ⟨_, _, _, _, hconclusion, _⟩ := parse_eq_ok_iff.mp hparse
  exact Literal.isAtomName_of_parse hconclusion

end Arrows

section Rendering

/-- The arrow is foreign to formulas, so that what is written for one has none. -/
theorem arrow_not_mem_of_tokenize {text : String} {tokens : List Token}
    (h : Token.tokenize text = .ok tokens) : arrow ∉ text.toList := by
  intro hmem
  have hforeign : Token.isForeign arrow = true := by decide +kernel
  rw [Token.isForeign_of_scan h arrow hmem] at hforeign
  cases hforeign

/-- A formula that is read from a text is also read from it with blanks around it, trimmed; and
    there is no arrow in such a text. -/
theorem parse_trim_padded {text padded : String} {lead trail : List Char} {formula : Formula}
    (hpadded : padded.toList = lead ++ text.toList ++ trail)
    (hlead : ∀ c ∈ lead, Text.isBlank c = true) (htrail : ∀ c ∈ trail, Text.isBlank c = true)
    (h : Formula.parse text = .ok formula) :
    Formula.parse (Text.trim padded) = .ok formula ∧ arrow ∉ padded.toList := by
  obtain ⟨tokens, htokens, hformula⟩ := ReadError.bind_eq_ok_iff.mp h
  have hblank : Text.isBlank arrow = false := by decide +kernel
  constructor
  · rw [Formula.parse, Token.tokenize_trim_padded hpadded hlead htrail htokens]
    exact hformula
  · rw [hpadded, List.mem_append, List.mem_append]
    rintro ((hmem | hmem) | hmem)
    · simp [hlead arrow hmem] at hblank
    · exact arrow_not_mem_of_tokenize htokens hmem
    · simp [htrail arrow hmem] at hblank

/-- A rule that was read is read back from how it is written, but for its source. -/
theorem parse_render_of_parse {text : String} {rule : Rule} (hparse : parse text = .ok rule) :
    parse rule.render = .ok { rule with source := rule.render } := by
  obtain ⟨left, right, _, hpremise, hconclusion, _⟩ := parse_eq_ok_iff.mp hparse
  have hspace := Token.isBlank_of_mem_space
  have hpremise' : Formula.parse rule.premise.render = .ok rule.premise := by
    rw [Formula.parse_render_eq fun name => Formula.isAtomName_of_parse hpremise,
      Formula.guarded_of_true (Formula.height_le_of_parse hpremise)]
  have hconclusion' : Literal.parse rule.conclusion.render = .ok rule.conclusion :=
    Literal.parse_render_of_isAtomName (Literal.isAtomName_of_parse hconclusion)
  have hleftText : (rule.premise.render ++ " ").toList =
      [] ++ rule.premise.render.toList ++ [' '] := by simp
  have hrightText : (" " ++ rule.conclusion.render).toList =
      [' '] ++ rule.conclusion.render.toList ++ [] := by simp
  obtain ⟨hleft, hleftFree⟩ := parse_trim_padded hleftText (by simp) hspace hpremise'
  obtain ⟨hright, hrightFree⟩ := parse_trim_padded hrightText hspace (by simp)
    (Literal.parse_eq_ok_iff_formula.mp hconclusion')
  have hsides : HasSides rule.render (rule.premise.render ++ " ")
      (" " ++ rule.conclusion.render) := by
    refine ⟨?_, hleftFree, hrightFree⟩
    apply String.toList_injective
    simp [render]
  exact hsides.parse_eq_ok_iff.mpr ⟨hleft, Literal.parse_eq_ok_iff_formula.mpr hright, rfl⟩

end Rendering

/-- A text is refused for its arrows exactly if it has none or more than one, and then with their
    number. With one arrow, its sides are trimmed and read, the premise first; the rule has both and
    keeps the text. What is written for a rule that was read is read as the same premise and
    conclusion, and is written the same again. -/
theorem parse_by_arrows (text : String) :
    (parse text = .error .noImplication ↔ arrow ∉ text.toList) ∧
    (∀ count, parse text = .error (.multipleImplications count) ↔
      2 ≤ count ∧ text.toList.count arrow = count) ∧
    (∀ rule, parse text = .ok rule ↔ ∃ left right, HasSides text left right ∧
      Formula.parse (Text.trim left) = .ok rule.premise ∧
      Literal.parse (Text.trim right) = .ok rule.conclusion ∧ rule.source = text) ∧
    (∀ left right, HasSides text left right →
      (∀ error, Formula.parse (Text.trim left) = .error error → parse text = .error error) ∧
      ∀ premise error, Formula.parse (Text.trim left) = .ok premise →
        Literal.parse (Text.trim right) = .error error → parse text = .error error) ∧
    ∀ rule, parse text = .ok rule → ∃ again, parse rule.render = .ok again ∧
      again.premise = rule.premise ∧ again.conclusion = rule.conclusion ∧
      again.render = rule.render := by
  refine ⟨parse_eq_noImplication_iff, fun count => parse_eq_multipleImplications_iff,
    fun rule => parse_eq_ok_iff, fun left right hsides => ⟨?_, ?_⟩, fun rule hparse => ?_⟩
  · intro error hpremise
    rw [hsides.parse_eq, hpremise]
    rfl
  · intro premise error hpremise hconclusion
    rw [hsides.parse_eq, hpremise, hconclusion]
    rfl
  · exact ⟨_, parse_render_of_parse hparse, rfl, rfl, rfl⟩

/-- The rule `¬((A ∧ B))→(¬G)` is written without its redundant parentheses and read back. Of two
    sides that cannot be read, the premise's error is told. -/
theorem parse_by_arrows_redundant :
    let rule : Rule := ⟨.not (.and (.atom "A") (.atom "B")), ⟨"G", false⟩, "¬((A ∧ B))→(¬G)"⟩
    parse "¬((A ∧ B))→(¬G)" = .ok rule ∧ rule.render = "¬(A ∧ B) → ¬G" ∧
      (∃ again, parse rule.render = .ok again ∧ again.premise = rule.premise ∧
        again.conclusion = rule.conclusion ∧ again.render = rule.render) ∧
      parse " → B ∧ C" = .error .unexpectedEnd ∧ parse "A → B ∧ C" = .error .notALiteral := by
  intro rule
  obtain ⟨_, _, hok, _, hagain⟩ := parse_by_arrows "¬((A ∧ B))→(¬G)"
  obtain ⟨_, _, _, hpremise, _⟩ := parse_by_arrows " → B ∧ C"
  obtain ⟨_, _, _, hconclusion, _⟩ := parse_by_arrows "A → B ∧ C"
  have hsides : HasSides "¬((A ∧ B))→(¬G)" "¬((A ∧ B))" "(¬G)" :=
    ⟨by decide +kernel, by decide, by decide⟩
  have hparse : parse "¬((A ∧ B))→(¬G)" = .ok rule :=
    (hok rule).mpr ⟨_, _, hsides, by decide +kernel, by decide +kernel, rfl⟩
  refine ⟨hparse, by decide +kernel, hagain rule hparse, ?_, ?_⟩
  · exact (hpremise " " " B ∧ C" ⟨by decide +kernel, by decide, by decide⟩).1 _ (by decide +kernel)
  · exact (hconclusion "A " " B ∧ C" ⟨by decide +kernel, by decide, by decide⟩).2 (.atom "A") _
      (by decide +kernel) (by decide +kernel)

end ForwardChaining.Rule
