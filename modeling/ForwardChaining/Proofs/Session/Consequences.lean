import Mathlib.Order.Bounds.Basic
import Mathlib.Data.List.Induction
import Mathlib.Data.Set.Lattice
import ForwardChaining.Proofs.Formula.Polarity
import ForwardChaining.Proofs.Session.Justification

namespace ForwardChaining

open Classical in
/-- The valuation on which exactly the atoms asserted by the literals are true. -/
noncomputable def Valuation.asserted (literals : Set Literal) : Valuation := fun atom =>
  if ⟨atom, true⟩ ∈ literals then some true else none

theorem Valuation.asserted_eq_some_true_iff {literals : Set Literal} {atom : String} :
    asserted literals atom = some true ↔ ⟨atom, true⟩ ∈ literals := by
  simp [asserted]

/-- The literals contain the assumptions, and the conclusion of every rule whose premise is true on
    what they assert. -/
structure ClosedUnder (assumptions : List Literal) (rules : List Rule) (literals : Set Literal) :
    Prop where
  assumptions : ∀ literal ∈ assumptions, literal ∈ literals
  rules : ∀ rule ∈ rules, rule.premise.holds (Valuation.asserted literals) = true →
    rule.conclusion ∈ literals

/-- The literals that are in every set closed under the assumptions and rules. -/
def consequences (assumptions : List Literal) (rules : List Rule) : Set Literal :=
  ⋂₀ {literals | ClosedUnder assumptions rules literals}

/-- No atom comes with both polarities. -/
def Consistent (literals : Set Literal) : Prop :=
  ∀ atom, ¬ (⟨atom, true⟩ ∈ literals ∧ ⟨atom, false⟩ ∈ literals)

/-- Rules with positive premises have a least closed set: a premise that is true on what all closed
    sets have in common is true on each of them. -/
theorem isLeast_consequences {assumptions : List Literal} {rules : List Rule}
    (hpositive : ∀ rule ∈ rules, rule.premise.IsPositive) :
    IsLeast {literals | ClosedUnder assumptions rules literals}
      (consequences assumptions rules) := by
  refine ⟨⟨?_, ?_⟩, fun literals hclosed => Set.sInter_subset_of_mem hclosed⟩
  · intro literal hmem literals hclosed
    exact hclosed.assumptions literal hmem
  · intro rule hrule hpremise literals hclosed
    apply hclosed.rules rule hrule
    refine (hpositive rule hrule).holds_mono (fun atom htrue => ?_) hpremise
    rw [Valuation.asserted_eq_some_true_iff] at htrue ⊢
    exact htrue literals hclosed

/-- Only which assumptions and rules there are matters, not their order or how often. -/
theorem consequences_congr {assumptions assumptions' : List Literal} {rules rules' : List Rule}
    (hassumptions : ∀ literal, literal ∈ assumptions ↔ literal ∈ assumptions')
    (hrules : ∀ rule, rule ∈ rules ↔ rule ∈ rules') :
    consequences assumptions rules = consequences assumptions' rules' := by
  have hclosed : ∀ literals, ClosedUnder assumptions rules literals ↔
      ClosedUnder assumptions' rules' literals := by
    intro literals
    constructor
    · intro h
      exact ⟨fun literal hmem => h.assumptions literal ((hassumptions literal).mpr hmem),
        fun rule hmem => h.rules rule ((hrules rule).mpr hmem)⟩
    · intro h
      exact ⟨fun literal hmem => h.assumptions literal ((hassumptions literal).mp hmem),
        fun rule hmem => h.rules rule ((hrules rule).mp hmem)⟩
  simp only [consequences, hclosed]

def Facts.toSet (facts : Facts) : Set Literal :=
  {literal | literal ∈ facts.literals}

theorem Facts.asserted_toSet_iff {facts : Facts} {atom : String} :
    Valuation.asserted facts.toSet atom = some true ↔ facts.valueOf atom = some true :=
  Valuation.asserted_eq_some_true_iff.trans (@valueOf_eq_some_iff facts ⟨atom, true⟩).symm

theorem Facts.consistent_toSet (facts : Facts) : Consistent facts.toSet := by
  rintro atom ⟨htrue, hfalse⟩
  have hpositive := valueOf_eq_some_iff.mpr htrue
  have hnegative := valueOf_eq_some_iff.mpr hfalse
  rw [hpositive] at hnegative
  cases hnegative

theorem Facts.valueOf_congr {first second : Facts} (h : first.toSet = second.toSet) :
    first.valueOf = second.valueOf := by
  funext atom
  apply Option.ext
  intro value
  have hiff : (⟨atom, value⟩ : Literal) ∈ first.toSet ↔ ⟨atom, value⟩ ∈ second.toSet := by rw [h]
  exact Facts.valueOf_eq_some_iff.trans (hiff.trans Facts.valueOf_eq_some_iff.symm)

section Sound

variable {assumptions : List Literal} {rules : List Rule} {literals : Set Literal}
  (hclosed : ClosedUnder assumptions rules literals)
  (hpositive : ∀ rule ∈ rules, rule.premise.IsPositive)

include hclosed hpositive

/-- A rule that fires on facts within a closed set concludes within it. -/
theorem ClosedUnder.conclusion_mem {facts : Facts} {source : String} {conclusion : Literal}
    (hfacts : facts.toSet ⊆ literals) (hfires : Rule.Fires (· ∈ rules) facts source conclusion) :
    conclusion ∈ literals := by
  obtain ⟨rule, hrule, _, rfl, hpremise⟩ := hfires
  apply hclosed.rules rule hrule
  refine (hpositive rule hrule).holds_mono (fun atom htrue => ?_) hpremise
  rw [Valuation.asserted_eq_some_true_iff]
  exact hfacts (Facts.valueOf_eq_some_iff.mp htrue)

theorem ClosedUnder.learnt_mem {facts : Facts} {step : Step} {literal : Literal}
    (hfacts : facts.toSet ⊆ literals)
    (hstep : step.JustifiedBy (· ∈ assumptions) (· ∈ rules) facts)
    (hlearnt : step.learnt? = some literal) : literal ∈ literals := by
  cases step with
  | assumed assumption =>
    cases hlearnt
    exact hclosed.assumptions literal hstep.1
  | derived source conclusion =>
    cases hlearnt
    exact hclosed.conclusion_mem hpositive hfacts hstep.2
  | repeated literal => cases hlearnt
  | skippedAssumption text error => cases hlearnt
  | invalidRuleFormat text => cases hlearnt
  | invalidRule text error => cases hlearnt
  | contradiction origin source suggested existing => cases hlearnt
  | invalidAnswer text error => cases hlearnt
  | ended outcome => cases hlearnt

/-- Justified steps add up to facts within every closed set. -/
theorem ClosedUnder.replay_subset {steps : List Step}
    (hsteps : Step.AllJustifiedBy (· ∈ assumptions) (· ∈ rules) steps) :
    (Facts.replay steps).toSet ⊆ literals := by
  induction steps using List.reverseRecOn with
  | nil =>
    intro literal hmem
    cases hmem
  | append_singleton steps last ih =>
    have hearlier : (Facts.replay steps).toSet ⊆ literals := ih hsteps.of_append
    have hlast := hsteps steps last [] rfl
    intro literal hmem
    rw [Facts.replay_append_singleton] at hmem
    unfold Facts.after at hmem
    cases hlearnt : last.learnt? with
    | none =>
      rw [hlearnt] at hmem
      exact hearlier hmem
    | some learnt =>
      rw [hlearnt] at hmem
      rcases Facts.mem_literals_insert hmem with hold | rfl
      · exact hearlier hold
      · exact hclosed.learnt_mem hpositive hearlier hlast hlearnt

/-- A contradiction that is noted is one between consequences. -/
theorem ClosedUnder.contradiction_mem {steps : List Step}
    (hsteps : Step.AllJustifiedBy (· ∈ assumptions) (· ∈ rules) steps) {origin : Origin}
    {source : String} {suggested : Literal} {existing : Bool}
    (hmem : Step.contradiction origin source suggested existing ∈ steps) :
    suggested ∈ literals ∧ ⟨suggested.atom, existing⟩ ∈ literals ∧
      existing ≠ suggested.polarity := by
  obtain ⟨before, after, hsplit⟩ := List.append_of_mem hmem
  obtain ⟨hvalue, hopposed, hassumption, hrule⟩ := hsteps before _ after hsplit
  rw [hsplit] at hsteps
  have hearlier := hclosed.replay_subset hpositive hsteps.of_append
  refine ⟨?_, hearlier (Facts.valueOf_eq_some_iff.mp hvalue), hopposed⟩
  cases origin with
  | assumption => exact hclosed.assumptions suggested (hassumption rfl)
  | rule => exact hclosed.conclusion_mem hpositive hearlier (hrule rfl)

end Sound

end ForwardChaining
