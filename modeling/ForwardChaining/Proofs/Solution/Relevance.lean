import Mathlib.Data.Finset.Insert
import ForwardChaining.Proofs.Session.Solving

namespace ForwardChaining

section Positions

variable {α β : Type} {items : List α} {positions : Finset Nat} {make? : α → Option β}

/-- The items without those at the given positions. -/
def deleteAt (items : List α) (positions : Finset Nat) : List α :=
  (items.zipIdx.filter fun item => decide (item.2 ∉ positions)).map Prod.fst

theorem filterMap_zipIdx (items : List α) (make? : α → Option β) :
    items.zipIdx.filterMap (make? ∘ Prod.fst) = items.filterMap make? := by
  rw [← List.filterMap_map, List.zipIdx_map_fst]

theorem filterMap_deleteAt
    (hnothing : ∀ position ∈ positions, ∀ item, items[position]? = some item → make? item = none) :
    (deleteAt items positions).filterMap make? = items.filterMap make? := by
  rw [deleteAt, List.filterMap_map, List.filterMap_filter, ← filterMap_zipIdx items]
  apply List.filterMap_congr
  intro item hitem
  split
  · rfl
  · rename_i hdeleted
    have hposition : item.2 ∈ positions := by simpa using hdeleted
    exact (hnothing item.2 hposition item.1 (List.mem_zipIdx_iff_getElem?.mp hitem)).symm

/-- Deleting items whose values take no step in their turn leaves the steps of the others. -/
theorem Facts.stepsBy_deleteAt {stepOn? : β → Facts → Option Step} {facts : Facts}
    (hsilent : ∀ position ∈ positions, ∀ item, items[position]? = some item →
      ∀ value, make? item = some value →
        stepOn? value (facts.afterAll
          (facts.stepsBy stepOn? ((items.take position).filterMap make?))) = none) :
    facts.stepsBy stepOn? ((deleteAt items positions).filterMap make?) =
      facts.stepsBy stepOn? (items.filterMap make?) := by
  rw [deleteAt, List.filterMap_map, ← filterMap_zipIdx items, stepsBy_filterMap,
    stepsBy_filterMap]
  apply stepsBy_filter
  intro before place after hsplit hdeleted
  have hposition : place.2 ∈ positions := by simpa using hdeleted
  -- The position of an item counts the items before it.
  have hplace : items.zipIdx[before.length]? = some place := by simp [hsplit]
  rw [List.getElem?_zipIdx, Nat.zero_add] at hplace
  obtain ⟨item, hitem, rfl⟩ := Option.map_eq_some_iff.mp hplace
  have hbefore : before.map Prod.fst = items.take before.length := by
    have hitems : items =
        before.map Prod.fst ++ ((item, before.length) :: after).map Prod.fst := by
      rw [← List.map_append, ← hsplit, List.zipIdx_map_fst]
    rw [hitems, List.take_left' (List.length_map _)]
  rw [← stepsBy_filterMap, ← List.filterMap_map, hbefore]
  cases hmade : make? item with
  | none => simp [hmade]
  | some value =>
    simp only [Function.comp_apply, hmade, Option.bind_some]
    exact hsilent before.length hposition item hitem value hmade

end Positions

/-- The text of the rule that a step goes by, for the steps that rules take in their turns. -/
def Step.ruleSource? : Step → Option String
  | .derived source _ => some source
  | .contradiction .rule source _ _ => some source
  | _ => none

theorem Rule.ruleSource?_of_stepOn? {rule : Rule} {facts : Facts} {step : Step}
    (hstep : rule.stepOn? facts = some step) : step.ruleSource? = some rule.source := by
  cases stepOn?_eq_some_iff.mp hstep with
  | derived | contradiction => rfl

/-- The rule that an entry gives, if it has an arrow and can be read. -/
def Rule.ofEntry? (entry : String) : Option Rule :=
  if isImplication entry then ofText? entry else none

theorem Rule.ofEntries_eq (entries : List String) :
    ofEntries entries = entries.filterMap ofEntry? :=
  List.filterMap_filter

theorem Rule.source_of_ofEntry? {entry : String} {rule : Rule} (h : ofEntry? entry = some rule) :
    isImplication entry = true ∧ rule.source = entry := by
  unfold ofEntry? ofText? at h
  split at h
  · rename_i harrow
    cases hparse : parse entry with
    | error error => simp [hparse, Except.toOption] at h
    | ok read =>
      have hread : read = rule := by simpa [hparse, Except.toOption] using h
      exact ⟨harrow, source_of_parse (hread ▸ hparse)⟩
  · cases h

namespace RuleBase

/-- The rule base without the entries at the given positions. -/
def without (ruleBase : RuleBase) (positions : Finset Nat) : RuleBase :=
  { ruleBase with entries := deleteAt ruleBase.entries positions }

/-- An entry at a position that contributes no step to the solution: it gives a rule that no step
    goes by, or it has no arrow and reading it in its place notes nothing. -/
def SilentAt (ruleBase : RuleBase) (config : Config) (clock : Clock) (position : Nat)
    (entry : String) : Prop :=
  if Rule.isImplication entry then
    (Rule.ofText? entry).isSome = true ∧
      ∀ step ∈ (ruleBase.solve config clock).steps, step.ruleSource? ≠ some entry
  else
    let earlier := Session.readAssumptions { config := config } (ruleBase.entries.take position)
    (earlier.readAssumption entry).trace = earlier.trace

instance (ruleBase : RuleBase) (config : Config) (clock : Clock) (position : Nat)
    (entry : String) : Decidable (ruleBase.SilentAt config clock position entry) :=
  inferInstanceAs (Decidable (ite _ _ _))

/-- Deleting rules that no step of a pass goes by leaves the steps of the pass. -/
theorem turnSteps_deleteAt {entries : List String} {positions : Finset Nat} {facts : Facts}
    (hunused : ∀ position ∈ positions, ∀ entry, entries[position]? = some entry →
      Rule.isImplication entry = true →
        ∀ step ∈ facts.turnSteps (Rule.ofEntries entries), step.ruleSource? ≠ some entry) :
    facts.turnSteps (Rule.ofEntries (deleteAt entries positions)) =
      facts.turnSteps (Rule.ofEntries entries) := by
  simp only [Rule.ofEntries_eq] at hunused ⊢
  apply Facts.stepsBy_deleteAt
  intro position hposition entry hentry rule hrule
  obtain ⟨harrow, hsource⟩ := Rule.source_of_ofEntry? hrule
  obtain ⟨hplace, hitem⟩ := List.getElem?_eq_some_iff.mp hentry
  have hrules : entries.filterMap Rule.ofEntry? = (entries.take position).filterMap Rule.ofEntry? ++
      rule :: (entries.drop (position + 1)).filterMap Rule.ofEntry? := by
    rw [← List.filterMap_cons_some hrule, ← List.filterMap_append, ← hitem,
      ← List.drop_eq_getElem_cons hplace, List.take_append_drop]
  -- A step taken in this place would be one of the pass.
  by_contra htaken
  obtain ⟨step, hstep⟩ := Option.ne_none_iff_exists'.mp htaken
  refine hunused position hposition entry hentry harrow step ?_
    (hsource ▸ Rule.ruleSource?_of_stepOn? hstep)
  rw [hrules]
  exact Facts.mem_stepsBy_of_place hstep

section

variable {ruleBase : RuleBase} {config : Config} {clock : Clock} {positions : Finset Nat}
  (hsilent : ∀ position ∈ positions, ∀ entry, ruleBase.entries[position]? = some entry →
    ruleBase.SilentAt config clock position entry)

include hsilent

theorem loadSteps_deleteAt :
    (∅ : Facts).loadSteps config (deleteAt ruleBase.entries positions) =
      (∅ : Facts).loadSteps config ruleBase.entries := by
  unfold Facts.loadSteps
  rw [List.filterMap_filter, List.filterMap_filter, ← List.filterMap_eq_filter]
  congr 1
  · apply Facts.stepsBy_deleteAt
    intro position hposition entry hentry value hvalue
    obtain ⟨rfl, harrow⟩ := Option.guard_eq_some_iff.mp hvalue
    have hquiet := hsilent position hposition entry hentry
    rw [SilentAt, if_neg (by simpa using harrow), Session.trace_readAssumption_eq_iff,
      Session.config_readAssumptions, ← Session.facts_account, Session.account_readAssumptions,
      Account.facts_takeAll, ← List.filterMap_eq_filter] at hquiet
    exact Literal.entryStep?_eq_none_iff.mpr hquiet
  · apply filterMap_deleteAt
    intro position hposition entry hentry
    split
    · rename_i harrow
      have hquiet := hsilent position hposition entry hentry
      rw [SilentAt, if_pos harrow] at hquiet
      exact Rule.refusal?_eq_none_iff.mpr hquiet.1
    · rfl

theorem passSteps_deleteAt {count : Nat}
    (hnoted : (ruleBase.assumedFacts config).passSteps (Rule.ofEntries ruleBase.entries) count ⊆
      (ruleBase.solve config clock).steps) :
    (ruleBase.assumedFacts config).passSteps
        (Rule.ofEntries (deleteAt ruleBase.entries positions)) count =
      (ruleBase.assumedFacts config).passSteps (Rule.ofEntries ruleBase.entries) count := by
  induction count with
  | zero => rfl
  | succ count ih =>
    rw [Facts.passSteps_succ] at hnoted
    obtain ⟨hearlier, hlast⟩ := List.append_subset.mp hnoted
    rw [Facts.passSteps_succ, Facts.passSteps_succ, Facts.afterPasses, ih hearlier]
    congr 1
    apply turnSteps_deleteAt
    intro position hposition entry hentry harrow step hstep
    have hquiet := hsilent position hposition entry hentry
    rw [SilentAt, if_pos harrow] at hquiet
    exact hquiet.2 step (hlast hstep)

end

/-- The steps of a solution name all that mattered. Entries that contribute none, wherever they
    stand and however many of them, can be deleted, and the solution is the same to the last step.
    A rule may be silent because its premise is never true, or because it only ever finds its
    conclusion held, or because the passes allowed end before its turn would come. -/
theorem solve_without_silent {ruleBase : RuleBase} {config : Config} {clock clock' : Clock}
    {positions : Finset Nat}
    (hsilent : ∀ position ∈ positions, ∀ entry, ruleBase.entries[position]? = some entry →
      ruleBase.SilentAt config clock position entry)
    (htime : .ended .timeLimit ∉ (ruleBase.solve config clock).steps)
    (htime' : .ended .timeLimit ∉ ((ruleBase.without positions).solve config clock').steps) :
    (ruleBase.without positions).solve config clock' = ruleBase.solve config clock := by
  have hload := loadSteps_deleteAt hsilent
  exact solve_eq_of_lockstep rfl hload (fun _ => passSteps_deleteAt hsilent) htime htime'

/-- Four entries of six are silent: a blank, a repetition, a rule whose premise is true until `q` is
    derived but whose conclusion is held, and one that would derive `r` if a second pass were
    allowed. -/
theorem solve_without_silent_four :
    let ruleBase : RuleBase :=
      { entries := ["q → r", "p", " ", "p → q", "p", "¬q → p"], answer := "q" }
    let config : Config := { passLimit := ⟨"pass_limit", 1, maxCount, 1⟩ }
    let positions : Finset Nat := {0, 2, 4, 5}
    (ruleBase.without positions).entries = ["p", "p → q"] ∧
      (ruleBase.solve config fun _ => 0).steps = [.assumed ⟨"p", true⟩,
        .derived "p → q" ⟨"q", true⟩, .ended .passLimit] ∧
      (ruleBase.without positions).solve config (fun _ => 5) =
        ruleBase.solve config fun _ => 0 := by
  intro ruleBase config positions
  have hsilent : ∀ position ∈ positions, ∀ entry, ruleBase.entries[position]? = some entry →
      ruleBase.SilentAt config (fun _ => 0) position entry := by
    intro position hposition entry hentry
    have hcases : position = 0 ∨ position = 2 ∨ position = 4 ∨ position = 5 := by
      simpa [positions] using hposition
    rcases hcases with rfl | rfl | rfl | rfl
    all_goals
      cases hentry
      decide +kernel
  exact ⟨by decide +kernel, by decide +kernel,
    solve_without_silent hsilent (by decide +kernel) (by decide +kernel)⟩

end RuleBase

end ForwardChaining
