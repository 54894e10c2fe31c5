import ForwardChaining.Proofs.Facts.History
import ForwardChaining.Proofs.Formula.Polarity

namespace ForwardChaining

/-- A literal on an atom without a value gives the atom its polarity and changes no other value. -/
theorem Facts.valueOf_insert_of_fresh {facts : Facts} {literal : Literal}
    (hfresh : facts.valueOf literal.atom = none) :
    (facts.insert literal).valueOf = facts.valueOf.update literal := by
  funext atom
  rw [valueOf_insert, Valuation.update]
  by_cases hatom : atom = literal.atom
  · rw [hatom, hfresh, if_pos rfl, Option.none_or]
  · rw [if_neg hatom, if_neg (Ne.symm hatom), Option.or_none]

namespace Formula

/-- A formula does not see the value false on an atom that is not true, nor any value on an atom
    that is not its own. -/
theorem holds_update {formula : Formula} {valuation : Valuation} {literal : Literal}
    (h : (literal.polarity = false ∧ valuation literal.atom ≠ some true) ∨
      literal.atom ∉ formula.occurrences.map Prod.fst) :
    formula.holds (valuation.update literal) = formula.holds valuation := by
  refine holds_congr fun occurrence hmem => ?_
  by_cases hatom : occurrence.1 = literal.atom
  · rcases h with ⟨hfalse, hvalue⟩ | habsent
    · simp [Valuation.update, hatom, hfalse, hvalue]
    · exact absurd (hatom ▸ List.mem_map_of_mem hmem) habsent
  · simp [Valuation.update, hatom]

/-- Facts keep the first value of an atom, so that learning a negation never makes a difference. -/
theorem holds_insert {formula : Formula} {facts : Facts} {literal : Literal}
    (h : literal.polarity = false ∨ literal.atom ∉ formula.occurrences.map Prod.fst) :
    formula.holds (facts.insert literal).valueOf = formula.holds facts.valueOf := by
  cases hvalue : facts.valueOf literal.atom with
  | none =>
    rw [Facts.valueOf_insert_of_fresh hvalue]
    exact holds_update (h.imp_left fun hfalse => ⟨hfalse, by simp [hvalue]⟩)
  | some value => rw [Facts.insert_of_valued (by simp [hvalue])]

/-- A true formula stays true when the atoms under an even number of negations lose no truth and
    those under an odd number gain none. So its value depends only on which of its atoms are true:
    the value false on an atom without a value and any value on an atom that is not its own make no
    difference, on a valuation or among facts. -/
theorem holds_monotone_by_polarity (formula : Formula) :
    (∀ first second : Valuation, Favours first second formula.occurrences →
      formula.holds first = true → formula.holds second = true) ∧
    (∀ first second : Valuation,
      (∀ occurrence ∈ formula.occurrences,
        first occurrence.1 = some true ↔ second occurrence.1 = some true) →
      formula.holds first = formula.holds second) ∧
    (∀ (valuation : Valuation) (atom : String), valuation atom = none →
      formula.holds (valuation.update ⟨atom, false⟩) = formula.holds valuation) ∧
    (∀ (valuation : Valuation) (literal : Literal),
      literal.atom ∉ formula.occurrences.map Prod.fst →
      formula.holds (valuation.update literal) = formula.holds valuation) ∧
    ∀ (facts : Facts) (literal : Literal),
      literal.polarity = false ∨ literal.atom ∉ formula.occurrences.map Prod.fst →
      formula.holds (facts.insert literal).valueOf = formula.holds facts.valueOf := by
  refine ⟨fun first second => holds_of_favours, fun first second => holds_congr, ?_,
    fun valuation literal habsent => holds_update (.inr habsent), fun facts literal => holds_insert⟩
  intro valuation atom hnone
  exact holds_update (.inl ⟨rfl, by simp [hnone]⟩)

/-- With `B` no longer true and `C` true for the first time, `(A ∨ ¬B) ∧ ¬¬A` stays true; and it
    does not see that `B` gets the value false or that `C` loses its value. -/
theorem holds_monotone_by_polarity_lost :
    let formula : Formula :=
      .and (.or (.atom "A") (.not (.atom "B"))) (.not (.not (.atom "A")))
    let first : Valuation := (Valuation.empty.update ⟨"A", true⟩).update ⟨"B", true⟩
    let second : Valuation := (Valuation.empty.update ⟨"A", true⟩).update ⟨"C", true⟩
    formula.holds first = true ∧ formula.holds second = true ∧
      formula.holds (second.update ⟨"B", false⟩) = true ∧
      formula.holds (second.update ⟨"C", false⟩) = true ∧
      formula.holds ((∅ : Facts).insert ⟨"B", false⟩).valueOf = false := by
  intro formula first second
  obtain ⟨hmono, _, hfalse, hother, hfacts⟩ := holds_monotone_by_polarity formula
  have hfirst : formula.holds first = true := by decide
  have hplaces : ∀ {name negations}, (name, negations) ∈ formula.occurrences →
      name = "A" ∧ Even negations ∨ name = "B" ∧ ¬ Even negations := by
    intro name negations hmem
    have hplace : (name, negations) ∈ [("A", 0), ("B", 1), ("A", 2)] := hmem
    simp only [List.mem_cons, Prod.mk.injEq, List.not_mem_nil, or_false] at hplace
    rcases hplace with ⟨rfl, rfl⟩ | ⟨rfl, rfl⟩ | ⟨rfl, rfl⟩ <;> decide
  have hfavours : Favours first second formula.occurrences := by
    constructor
    · intro name negations hmem heven _
      rcases hplaces hmem with ⟨rfl, _⟩ | ⟨_, hodd⟩
      · decide
      · exact absurd heven hodd
    · intro name negations hmem hodd _
      rcases hplaces hmem with ⟨rfl, _⟩ | ⟨rfl, _⟩
      all_goals decide
  have hsecond := hmono first second hfavours hfirst
  refine ⟨hfirst, hsecond, ?_, ?_, ?_⟩
  · rw [hfalse second "B" (by decide), hsecond]
  · rw [hother second ⟨"C", false⟩ (by decide), hsecond]
  · rw [hfacts ∅ ⟨"B", false⟩ (.inl rfl)]
    decide

end Formula

end ForwardChaining
