import ForwardChaining.Literal
import ForwardChaining.Proofs.Formula.RoundTrip

namespace ForwardChaining

/-- The tokens in so many pairs of parentheses. -/
def Token.enclosed (count : Nat) (tokens : List Token) : List Token :=
  List.replicate count .leftParen ++ tokens ++ List.replicate count .rightParen

theorem Token.enclosed_succ (count : Nat) (tokens : List Token) :
    enclosed (count + 1) tokens = .leftParen :: (enclosed count tokens ++ [.rightParen]) := by
  rw [enclosed, enclosed, List.replicate_succ, List.replicate_succ']
  simp only [List.cons_append, List.append_assoc]

open Token (enclosed enclosed_succ)

namespace Formula

/-- Parentheses can be put around what stands at any level, and each is one more that is open. -/
theorem Derives.enclosed {level : Level} {tokens : List Token} {formula : Formula} {nesting : Nat}
    (h : Derives level tokens formula nesting) (count : Nat) :
    Derives level (Token.enclosed count tokens) formula (nesting + count) := by
  induction count with
  | zero => simpa [Token.enclosed] using h
  | succ count ih =>
    rw [enclosed_succ]
    have hprimary := Derives.group (ih.loosen level.minimum_disjunction_le)
    exact hprimary.loosen (by cases level <;> decide)

/-- Nothing but parentheses can stand around an atom that is the whole formula. -/
theorem Derives.eq_enclosed_of_atom {level : Level} {tokens : List Token} {name : String}
    {nesting : Nat} (h : Derives level tokens (.atom name) nesting) :
    tokens = Token.enclosed nesting [.atom name] := by
  generalize hformula : Formula.atom name = formula at h
  induction h with
  | atom other =>
    cases hformula
    rfl
  | group inner ih => rw [ih hformula, enclosed_succ]
  | primary inner ih | operand inner ih | conjunction inner ih => exact ih hformula
  | not inner | and first next | or first next => cases hformula

/-- Nothing but parentheses can stand around a negated atom and between it and its negation. -/
theorem Derives.eq_enclosed_of_not {level : Level} {tokens : List Token} {name : String}
    {nesting : Nat} (h : Derives level tokens (.not (.atom name)) nesting) :
    ∃ outer inner, nesting = outer + 1 + inner ∧
      tokens = Token.enclosed outer (.not :: Token.enclosed inner [.atom name]) := by
  generalize hformula : Formula.not (.atom name) = formula at h
  induction h with
  | atom other => cases hformula
  | group inner ih =>
    obtain ⟨outer, inside, rfl, rfl⟩ := ih hformula
    exact ⟨outer + 1, inside, by omega, (enclosed_succ _ _).symm⟩
  | primary inner ih | operand inner ih | conjunction inner ih => exact ih hformula
  | @not tokens formula nesting inner =>
    cases hformula
    exact ⟨0, nesting, by omega, by simp [Token.enclosed, inner.eq_enclosed_of_atom]⟩
  | and first next | or first next => cases hformula

end Formula

namespace Literal

/-- The formula that a literal is. -/
def formula (literal : Literal) : Formula :=
  if literal.polarity then .atom literal.atom else .not (.atom literal.atom)

theorem ofFormula_eq_ok_iff {formula : Formula} {literal : Literal} :
    ofFormula formula = .ok literal ↔ formula = literal.formula := by
  obtain ⟨atom, polarity⟩ := literal
  constructor
  · intro h
    unfold ofFormula at h
    split at h
    all_goals cases h
    all_goals rfl
  · rintro rfl
    cases polarity <;> rfl

theorem ofFormula_eq_error {formula : Formula} {error : ReadError}
    (h : ofFormula formula = .error error) : error = .notALiteral := by
  unfold ofFormula at h
  split at h
  all_goals cases h
  rfl

/-- The tokens that a literal can be written with: an atom in up to 256 pairs of parentheses, or a
    negation with parentheses around it and around its atom, where the negation counts as one more
    pair. -/
inductive IsSpelled : Literal → List Token → Prop where
  | positive {outer : Nat} (name : String) (hdepth : outer ≤ 256) :
      IsSpelled ⟨name, true⟩ (enclosed outer [.atom name])
  | negative {outer inner : Nat} (name : String) (hdepth : outer + 1 + inner ≤ 256) :
      IsSpelled ⟨name, false⟩ (enclosed outer (.not :: enclosed inner [.atom name]))

theorem height_formula_le (literal : Literal) : literal.formula.height ≤ Formula.depthLimit := by
  unfold formula
  split <;> simp [Formula.height, Formula.depthLimit]

theorem IsSpelled.exists_derives {literal : Literal} {tokens : List Token}
    (h : literal.IsSpelled tokens) :
    ∃ nesting ≤ Formula.depthLimit,
      Formula.Derives .disjunction tokens literal.formula nesting := by
  cases h with
  | @positive outer name hdepth =>
    have hatom := (Formula.Derives.atom name).enclosed outer
    exact ⟨0 + outer, by rwa [Nat.zero_add], hatom.loosen (by decide)⟩
  | @negative outer inner name hdepth =>
    have hatom := (Formula.Derives.primary (.atom name)).enclosed inner
    have hnot := (Formula.Derives.not hatom).enclosed outer
    refine ⟨0 + inner + 1 + outer, ?_, hnot.loosen (by decide)⟩
    unfold Formula.depthLimit
    omega

/-- The tokens that are read as a literal are just those that it can be written with. -/
theorem ofTokens_eq_formula_iff {literal : Literal} {tokens : List Token} :
    Formula.ofTokens tokens = .ok literal.formula ↔ literal.IsSpelled tokens := by
  constructor
  · intro h
    obtain ⟨nesting, hderives, hnesting, _⟩ := Formula.derives_of_ofTokens h
    obtain ⟨atom, polarity⟩ := literal
    cases polarity with
    | true =>
      rw [Formula.Derives.eq_enclosed_of_atom hderives]
      exact .positive atom hnesting
    | false =>
      obtain ⟨outer, inner, rfl, rfl⟩ := Formula.Derives.eq_enclosed_of_not hderives
      exact .negative atom hnesting
  · intro h
    obtain ⟨nesting, hnesting, hderives⟩ := h.exists_derives
    rw [Formula.ofTokens_of_derives hderives,
      Formula.guarded_of_true ⟨hnesting, literal.height_formula_le⟩]

theorem parse_eq_ok_iff_formula {text : String} {literal : Literal} :
    parse text = .ok literal ↔ Formula.parse text = .ok literal.formula := by
  rw [parse, ReadError.bind_eq_ok_iff]
  simp only [ofFormula_eq_ok_iff]
  constructor
  · rintro ⟨formula, hparse, rfl⟩
    exact hparse
  · intro hparse
    exact ⟨_, hparse, rfl⟩

theorem parse_eq_ok_iff_isSpelled {text : String} {literal : Literal} :
    parse text = .ok literal ↔
      ∃ tokens, Token.tokenize text = .ok tokens ∧ literal.IsSpelled tokens := by
  rw [parse_eq_ok_iff_formula, Formula.parse, ReadError.bind_eq_ok_iff]
  simp only [ofTokens_eq_formula_iff]

theorem atoms_formula (literal : Literal) : literal.formula.atoms = [literal.atom] := by
  unfold formula
  split <;> rfl

theorem isAtomName_of_parse {text : String} {literal : Literal}
    (hparse : parse text = .ok literal) : Text.IsAtomName literal.atom := by
  apply Formula.isAtomName_of_parse (parse_eq_ok_iff_formula.mp hparse)
  rw [atoms_formula]
  exact List.mem_singleton.mpr rfl

theorem render_formula (literal : Literal) : literal.formula.render = literal.render := by
  obtain ⟨atom, polarity⟩ := literal
  cases polarity <;> rfl

theorem parse_render_of_isAtomName {literal : Literal} (hname : Text.IsAtomName literal.atom) :
    parse literal.render = .ok literal := by
  have hnames : ∀ name ∈ literal.formula.atoms, Text.IsAtomName name := by
    rw [atoms_formula]
    exact List.forall_mem_singleton.mpr hname
  rw [parse_eq_ok_iff_formula, ← render_formula, Formula.parse_render_eq hnames,
    Formula.guarded_of_true literal.height_formula_le]

/-- A text is read as a literal exactly if its tokens are ones that the literal can be written
    with. Any other text that is a formula is refused as no literal, and a literal whose atom has a
    name that can be read is read back as it was written. -/
theorem parse_exactly_spelled (text : String) (literal : Literal) :
    (parse text = .ok literal ↔
      ∃ tokens, Token.tokenize text = .ok tokens ∧ literal.IsSpelled tokens) ∧
    (∀ formula, Formula.parse text = .ok formula →
      (¬ ∃ tokens, Token.tokenize text = .ok tokens ∧ ∃ other : Literal, other.IsSpelled tokens) →
      parse text = .error .notALiteral) ∧
    (Text.IsAtomName literal.atom → parse literal.render = .ok literal) := by
  refine ⟨parse_eq_ok_iff_isSpelled, fun formula hformula hnot => ?_, parse_render_of_isAtomName⟩
  cases hparse : parse text with
  | ok other =>
    obtain ⟨tokens, htokens, hspelled⟩ := parse_eq_ok_iff_isSpelled.mp hparse
    exact absurd ⟨tokens, htokens, other, hspelled⟩ hnot
  | error error =>
    rw [parse, hformula] at hparse
    rw [ofFormula_eq_error hparse]

/-- `(¬((G)))` is a literal, and `¬(¬G)` is a formula but no literal. -/
theorem parse_exactly_spelled_negations :
    parse "(¬((G)))" = .ok ⟨"G", false⟩ ∧ parse "¬(¬G)" = .error .notALiteral ∧
      parse (Literal.mk "Việt" false).render = .ok ⟨"Việt", false⟩ := by
  obtain ⟨hok, _, _⟩ := parse_exactly_spelled "(¬((G)))" ⟨"G", false⟩
  obtain ⟨_, hrefused, _⟩ := parse_exactly_spelled "¬(¬G)" ⟨"G", true⟩
  have htokens : Token.tokenize "(¬((G)))" = .ok (enclosed 1 (.not :: enclosed 2 [.atom "G"])) := by
    decide +kernel
  have hformula : Formula.parse "¬(¬G)" = .ok (.not (.not (.atom "G"))) := by decide +kernel
  refine ⟨hok.mpr ⟨_, htokens, .negative "G" (by decide)⟩, hrefused _ hformula ?_,
    (parse_exactly_spelled "" _).2.2 (by decide +kernel)⟩
  rintro ⟨tokens, htokens, ⟨atom, polarity⟩, hspelled⟩
  rw [Formula.parse, htokens] at hformula
  have hsame := (ofTokens_eq_formula_iff.mpr hspelled).symm.trans hformula
  cases polarity <;> cases hsame

end Literal

end ForwardChaining
