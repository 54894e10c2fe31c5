import Mathlib.Data.Finset.Card
import ForwardChaining.Proofs.Session.Pass

namespace ForwardChaining

/-- An interrupt that lets every further question pass. -/
def Interrupt.IsSilent (interrupt : Interrupt) : Prop :=
  ∀ question, interrupt.asked ≤ question → interrupt.answer question = false

/-- Facts that grew have a literal on an atom that had no value. -/
theorem Facts.exists_fresh_of_size_lt {earlier later : Facts}
    (hfront : earlier.literals <+: later.literals) (hsize : earlier.size < later.size) :
    ∃ literal ∈ later.literals, earlier.valueOf literal.atom = none := by
  obtain ⟨extra, hextra⟩ := hfront
  cases extra with
  | nil =>
    have hlength : later.size = earlier.size := by
      simpa [size] using (congrArg List.length hextra).symm
    omega
  | cons literal rest =>
    have hmem : literal ∈ later.literals := by simp [← hextra]
    have hnodup := later.nodup
    rw [← hextra, List.map_append, List.map_cons, List.nodup_middle, List.nodup_cons] at hnodup
    refine ⟨literal, hmem, valueOf_eq_none_iff.mpr fun hold => hnodup.1 ?_⟩
    exact List.mem_append_left _ hold

theorem Facts.valueOf_eq_none_of_prefix {earlier later : Facts} {atom : String}
    (hfront : earlier.literals <+: later.literals) (hnone : later.valueOf atom = none) :
    earlier.valueOf atom = none := by
  rw [valueOf_eq_none_iff] at hnone ⊢
  exact fun hmem => hnone ((hfront.map Literal.atom).subset hmem)

namespace Session

/-- The atoms that some rule concludes on and that have no value. -/
def openAtoms (session : Session) : Finset String :=
  (session.rules.map (·.conclusion.atom)).toFinset.filter (session.facts.valueOf · = none)

/-- Whatever interrupt there is lets every further question pass. -/
def Uninterrupted (session : Session) : Prop :=
  ∀ interrupt, session.interrupt = some interrupt → interrupt.IsSilent

theorem mem_openAtoms {session : Session} {atom : String} :
    atom ∈ session.openAtoms ↔
      (∃ rule ∈ session.rules, rule.conclusion.atom = atom) ∧
        session.facts.valueOf atom = none := by
  simp [openAtoms]

theorem Uninterrupted.askInterrupt {session : Session} (h : session.Uninterrupted) :
    ∃ asked, session.askInterrupt = (false, asked) ∧ asked.Uninterrupted ∧
      asked.account = session.account ∧ asked.config = session.config := by
  refine ⟨session.askInterrupt.2, ?_, ?_, account_askInterrupt session, config_askInterrupt session⟩
  · unfold Session.askInterrupt
    cases hinterrupt : session.interrupt with
    | none => rfl
    | some interrupt =>
      have hanswer := h interrupt hinterrupt interrupt.asked (Nat.le_refl _)
      simp [hanswer]
  · intro next hnext
    unfold Session.askInterrupt at hnext
    cases hinterrupt : session.interrupt with
    | none => simp [hinterrupt] at hnext
    | some interrupt =>
      have hnext' : { interrupt with asked := interrupt.asked + 1 } = next := by
        simpa [hinterrupt] using hnext
      intro question hquestion
      rw [← hnext'] at hquestion ⊢
      exact h interrupt hinterrupt question (Nat.le_of_succ_le hquestion)

theorem passes_applyRule (session : Session) (rule : Rule) :
    (session.applyRule rule).counters.passes = session.counters.passes := by
  change (session.applyRule rule).account.counters.passes = session.counters.passes
  rw [account_applyRule]
  cases rule.stepOn? session.facts with
  | none => rfl
  | some step => exact session.counters.passes_tally step

theorem passes_pass (session : Session) (number : Nat) :
    (session.pass number).counters.passes = session.counters.passes + 1 :=
  foldl_keeps (fun session => session.counters.passes) passes_applyRule session.rules
    (session.beginPass number)

/-- A pass that learns something leaves fewer atoms open: what it learns are conclusions. -/
theorem card_openAtoms_pass_lt {session : Session} {number : Nat}
    (hgrows : session.facts.size < (session.pass number).facts.size) :
    (session.pass number).openAtoms.card < session.openAtoms.card := by
  have hfront : session.facts.literals <+: (session.pass number).facts.literals :=
    (session.beginPass number).prefix_foldl_applyRule session.rules
  apply Finset.card_lt_card
  rw [Finset.ssubset_iff_of_subset]
  · obtain ⟨literal, hmem, hfresh⟩ := Facts.exists_fresh_of_size_lt hfront hgrows
    refine ⟨literal.atom, ?_, ?_⟩
    · rcases mem_literals_foldl_applyRule hmem with hold | ⟨rule, hrule, hconclusion⟩
      · exact absurd (List.mem_map_of_mem hold) (Facts.valueOf_eq_none_iff.mp hfresh)
      · exact mem_openAtoms.mpr ⟨⟨rule, hrule, congrArg Literal.atom hconclusion⟩, hfresh⟩
    · intro hopen
      have hnone := (mem_openAtoms.mp hopen).2
      rw [Facts.valueOf_eq_some_iff.mpr hmem] at hnone
      cases hnone
  · intro atom hopen
    obtain ⟨⟨rule, hrule, hatom⟩, hnone⟩ := mem_openAtoms.mp hopen
    rw [rules_pass] at hrule
    exact mem_openAtoms.mpr ⟨⟨rule, hrule, hatom⟩, Facts.valueOf_eq_none_of_prefix hfront hnone⟩

theorem openAtoms_of_account {first second : Session} (h : first.account = second.account) :
    first.openAtoms = second.openAtoms := by
  have hrules : first.rules = second.rules := congrArg Account.rules h
  have hfacts : first.facts = second.facts := congrArg Account.facts h
  rw [openAtoms, openAtoms, hrules, hfacts]

/-- With more passes remaining than atoms open, and neither clock nor interrupt in the way, the
    loop ends by itself: each pass but the last closes an atom. -/
theorem chainFrom_of_open_lt {clock : Clock} {remaining passes : Nat} {session : Session}
    (hremaining : session.openAtoms.card < remaining)
    (htime : ∀ check, passes ≤ check → check ≤ passes + session.openAtoms.card →
      clock check ≤ session.config.timeLimit.value)
    (hinterrupt : session.Uninterrupted) :
    ∃ made final, chainFrom clock remaining passes session = (.fixedPoint, passes + made, final) ∧
      1 ≤ made ∧ made ≤ session.openAtoms.card + 1 ∧
      final.counters.passes = session.counters.passes + made := by
  induction remaining generalizing passes session with
  | zero => omega
  | succ remaining ih =>
    obtain ⟨asked, hask, hsilent, haccount, hconfig⟩ := hinterrupt.askInterrupt
    have hopen := openAtoms_of_account haccount
    have hcounters : asked.counters = session.counters := congrArg Account.counters haccount
    have hpassed : (asked.pass (passes + 1)).counters.passes = session.counters.passes + 1 := by
      rw [passes_pass, hcounters]
    unfold chainFrom
    rw [if_neg (Nat.not_lt.mpr (htime passes (Nat.le_refl _) (Nat.le_add_right _ _))), hask]
    dsimp only
    split
    · rename_i hgrows
      have hfewer := card_openAtoms_pass_lt hgrows
      rw [hopen] at hfewer
      have hsilent' : (asked.pass (passes + 1)).Uninterrupted := by
        intro interrupt hsome
        rw [interrupt_pass] at hsome
        exact hsilent interrupt hsome
      have htime' : ∀ check, passes + 1 ≤ check →
          check ≤ passes + 1 + (asked.pass (passes + 1)).openAtoms.card →
          clock check ≤ (asked.pass (passes + 1)).config.timeLimit.value := by
        intro check hfrom hto
        rw [config_pass, hconfig]
        exact htime check (by omega) (by omega)
      obtain ⟨made, final, hchain, hleast, hmost, hmade⟩ :=
        @ih (passes + 1) _ (by omega) htime' hsilent'
      refine ⟨made + 1, final, ?_, by omega, by omega, by omega⟩
      rw [hchain, Nat.add_assoc, Nat.add_comm 1 made]
    · exact ⟨1, _, rfl, Nat.le_refl _, by omega, hpassed⟩

/-- Chaining reaches a fixed point of its own within one more pass than there are atoms open, as
    long as so many passes are allowed and neither the clock, at the checks there can be, nor the
    interrupt stops it. There, every rule with a true premise has a valued conclusion, whatever the
    rules before or after it did to that premise on the way. -/
theorem chain_reaches_fixedPoint {session : Session} {clock : Clock}
    (hlimit : session.openAtoms.card + 1 ≤ session.config.passLimit.value)
    (htime : ∀ check ≤ session.openAtoms.card, clock check ≤ session.config.timeLimit.value)
    (hinterrupt : session.Uninterrupted) :
    ∃ final passes, session.chain clock = (.fixedPoint, final) ∧
      1 ≤ passes ∧ passes ≤ session.openAtoms.card + 1 ∧
      final.counters.passes = session.counters.passes + passes ∧
      final.trace.getLast? = some (.ended .fixedPoint) ∧
      final.rules = session.rules ∧
      ∀ rule ∈ final.rules, rule.premise.holds final.facts.valueOf = true →
        final.facts.valueOf rule.conclusion.atom ≠ none := by
  have hchecks : ∀ check, 0 ≤ check → check ≤ 0 + session.openAtoms.card →
      clock check ≤ session.config.timeLimit.value := fun check _ hmost => htime check (by omega)
  obtain ⟨passes, last, hchain, hleast, hmost, hpasses⟩ :=
    chainFrom_of_open_lt hlimit hchecks hinterrupt
  have hresult : session.chain clock =
      (.fixedPoint, last.finishChain .fixedPoint (0 + passes)) := by
    rw [chain, hchain]
  have hfixed : (session.chain clock).1 = .fixedPoint := by rw [hresult]
  obtain ⟨hrules, hsaturated, earlier, htrace⟩ := chain_of_fixedPoint hfixed
  rw [hresult] at hrules hsaturated htrace
  refine ⟨_, passes, hresult, hleast, hmost, hpasses, ?_, hrules, ?_⟩
  · rw [htrace, List.getLast?_append_of_ne_nil _ (List.cons_ne_nil _ _)]
    rfl
  · rw [hrules]
    exact hsaturated

/-- Two rules in the order that takes a pass for each, with no pass and no nanosecond to spare, and
    an interrupt that takes five nanoseconds for every answer. -/
def backwardRules : Session where
  config :=
    { passLimit := ⟨"pass_limit", 1, maxCount, 3⟩
      timeLimit := ⟨"time_limit", 0, maxDuration, 30⟩ }
  facts := (∅ : Facts).insert ⟨"A", true⟩
  rules := [⟨.atom "B", ⟨"C", true⟩, "B → C"⟩, ⟨.atom "A", ⟨"B", true⟩, "A → B"⟩]
  interrupt := some (.slow 5)

theorem chain_backwardRules_reaches_fixedPoint :
    backwardRules.openAtoms.card = 2 ∧
      ∃ final passes, backwardRules.chain backwardRules.idealClock = (.fixedPoint, final) ∧
        1 ≤ passes ∧ passes ≤ 3 ∧ final.counters.passes = passes ∧
        final.facts.literals = [⟨"A", true⟩, ⟨"B", true⟩, ⟨"C", true⟩] := by
  have hopen : backwardRules.openAtoms.card = 2 := by decide +kernel
  have hlimit : backwardRules.openAtoms.card + 1 ≤ backwardRules.config.passLimit.value := by
    rw [hopen]
    rfl
  have htime : ∀ check ≤ backwardRules.openAtoms.card,
      backwardRules.idealClock check ≤ backwardRules.config.timeLimit.value := by
    rw [hopen]
    decide
  have hinterrupt : backwardRules.Uninterrupted := by
    intro interrupt hsome question _
    cases hsome
    rfl
  obtain ⟨final, passes, hchain, hleast, hmost, hpasses, _⟩ :=
    chain_reaches_fixedPoint hlimit htime hinterrupt
  rw [hopen] at hmost
  rw [show backwardRules.counters.passes = 0 from rfl, Nat.zero_add] at hpasses
  have hfacts : (backwardRules.chain backwardRules.idealClock).2.facts.literals =
      [⟨"A", true⟩, ⟨"B", true⟩, ⟨"C", true⟩] := by decide +kernel
  rw [hchain] at hfacts
  exact ⟨hopen, final, passes, hchain, hleast, hmost, hpasses, hfacts⟩

end Session

end ForwardChaining
