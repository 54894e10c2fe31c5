import Mathlib.Algebra.Ring.Parity
import ForwardChaining.Valuation

namespace ForwardChaining.Formula

/-- The atoms of a formula from left to right, each with the number of negations it stands under. -/
def occurrences : Formula → List (String × Nat)
  | .atom name => [(name, 0)]
  | .not body => body.occurrences.map fun occurrence => (occurrence.1, occurrence.2 + 1)
  | .and left right => left.occurrences ++ right.occurrences
  | .or left right => left.occurrences ++ right.occurrences

/-- Every atom stands under an even number of negations. -/
def IsPositive (formula : Formula) : Prop :=
  ∀ occurrence ∈ formula.occurrences, Even occurrence.2

instance (formula : Formula) : Decidable formula.IsPositive :=
  inferInstanceAs (Decidable (∀ occurrence ∈ formula.occurrences, Even occurrence.2))

/-- The second valuation keeps what the first makes true of the atoms under an even number of
    negations, and adds no truth to those under an odd number. -/
structure Favours (first second : Valuation) (occurrences : List (String × Nat)) : Prop where
  even : ∀ {name negations}, (name, negations) ∈ occurrences → Even negations →
    first name = some true → second name = some true
  odd : ∀ {name negations}, (name, negations) ∈ occurrences → Odd negations →
    second name = some true → first name = some true

theorem Favours.mono {first second : Valuation} {fewer more : List (String × Nat)}
    (h : Favours first second more) (hsub : fewer ⊆ more) : Favours first second fewer :=
  ⟨fun hmem => h.even (hsub hmem), fun hmem => h.odd (hsub hmem)⟩

/-- Taking a negation away makes even what was odd, so the valuations change places. -/
theorem Favours.under_not {first second : Valuation} {body : Formula}
    (h : Favours first second (Formula.not body).occurrences) :
    Favours second first body.occurrences := by
  have hdeeper : ∀ {name negations}, (name, negations) ∈ body.occurrences →
      (name, negations + 1) ∈ (Formula.not body).occurrences :=
    fun hmem => List.mem_map_of_mem (f := fun occurrence => (occurrence.1, occurrence.2 + 1)) hmem
  exact ⟨fun hmem heven => h.odd (hdeeper hmem) heven.add_one,
    fun hmem hodd => h.even (hdeeper hmem) hodd.add_one⟩

/-- A true formula stays true on a valuation that favours its atoms by their polarity. -/
theorem holds_of_favours {formula : Formula} {first second : Valuation}
    (h : Favours first second formula.occurrences) (hholds : formula.holds first = true) :
    formula.holds second = true := by
  induction formula generalizing first second with
  | atom name =>
    have htrue : first name = some true := by simpa [holds] using hholds
    simpa [holds] using h.even (List.mem_singleton.mpr rfl) Even.zero htrue
  | not body ih =>
    -- A body that became true would have been true before: the induction runs backwards here.
    have hbody : body.holds first = false := by simpa [holds] using hholds
    have hback : body.holds second ≠ true := by
      intro hsecond
      rw [ih h.under_not hsecond] at hbody
      cases hbody
    simpa [holds] using hback
  | and left right ihl ihr =>
    obtain ⟨hleft, hright⟩ : left.holds first = true ∧ right.holds first = true := by
      simpa [holds] using hholds
    have hl := ihl (h.mono (List.subset_append_left _ _)) hleft
    have hr := ihr (h.mono (List.subset_append_right _ _)) hright
    simp [holds, hl, hr]
  | or left right ihl ihr =>
    have hsplit : left.holds first = true ∨ right.holds first = true := by
      simpa [holds] using hholds
    cases hsplit with
    | inl hleft => simp [holds, ihl (h.mono (List.subset_append_left _ _)) hleft]
    | inr hright => simp [holds, ihr (h.mono (List.subset_append_right _ _)) hright]

/-- Making more atoms true cannot make a positive formula false. -/
theorem IsPositive.holds_mono {formula : Formula} (hpositive : formula.IsPositive)
    {first second : Valuation} (hmore : ∀ name, first name = some true → second name = some true)
    (hholds : formula.holds first = true) : formula.holds second = true := by
  refine holds_of_favours ⟨fun _ _ => hmore _, fun hmem hodd => ?_⟩ hholds
  have heven := hpositive _ hmem
  exact absurd heven (Nat.not_even_iff_odd.mpr hodd)

/-- A formula sees of a valuation only which of its atoms are true. -/
theorem holds_congr {formula : Formula} {first second : Valuation}
    (hagree : ∀ occurrence ∈ formula.occurrences,
      first occurrence.1 = some true ↔ second occurrence.1 = some true) :
    formula.holds first = formula.holds second := by
  rw [Bool.eq_iff_iff]
  constructor
  · exact holds_of_favours ⟨fun hmem _ => (hagree _ hmem).mp, fun hmem _ => (hagree _ hmem).mpr⟩
  · exact holds_of_favours ⟨fun hmem _ => (hagree _ hmem).mpr, fun hmem _ => (hagree _ hmem).mp⟩

end ForwardChaining.Formula
