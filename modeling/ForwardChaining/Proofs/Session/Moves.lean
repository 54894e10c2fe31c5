import ForwardChaining.Proofs.Session.Account
import ForwardChaining.Session.Answer
import ForwardChaining.Session.Chain

namespace ForwardChaining

/-- The literal that an entry read as an assumption gives, if it can be read. -/
def Literal.ofEntry? (entry : String) : Option Literal :=
  (Literal.parse (Text.trim entry)).toOption

def Rule.ofText? (text : String) : Option Rule :=
  (Rule.parse text).toOption

theorem Rule.source_of_parse {text : String} {rule : Rule} (hparse : Rule.parse text = .ok rule) :
    rule.source = text := by
  unfold Rule.parse at hparse
  obtain ⟨⟨left, right⟩, _, hparse⟩ := ReadError.bind_eq_ok_iff.mp hparse
  obtain ⟨premise, _, hparse⟩ := ReadError.bind_eq_ok_iff.mp hparse
  obtain ⟨conclusion, _, hparse⟩ := ReadError.bind_eq_ok_iff.mp hparse
  cases hparse
  rfl

/-- The step a rule takes on the facts when its turn comes, if it takes one. -/
def Rule.stepOn? (rule : Rule) (facts : Facts) : Option Step :=
  if rule.premise.holds facts.valueOf then
    match facts.standing rule.conclusion with
    | .fresh => some (.derived rule.source rule.conclusion)
    | .known => none
    | .opposed existing => some (.contradiction .rule rule.source rule.conclusion existing)
  else
    none

/-- What a rule with a true premise does on the facts: it derives its conclusion, or notes that the
    conclusion's atom has the opposite value. -/
inductive Rule.Takes (rule : Rule) (facts : Facts) : Step → Prop where
  | derived (hpremise : rule.premise.holds facts.valueOf = true)
      (hfresh : facts.valueOf rule.conclusion.atom = none) :
      Takes rule facts (.derived rule.source rule.conclusion)
  | contradiction {existing : Bool} (hpremise : rule.premise.holds facts.valueOf = true)
      (hvalue : facts.valueOf rule.conclusion.atom = some existing)
      (hopposed : existing ≠ rule.conclusion.polarity) :
      Takes rule facts (.contradiction .rule rule.source rule.conclusion existing)

theorem Rule.stepOn?_eq_some_iff {rule : Rule} {facts : Facts} {step : Step} :
    rule.stepOn? facts = some step ↔ rule.Takes facts step := by
  constructor
  · intro hstep
    unfold stepOn? at hstep
    split at hstep
    · rename_i hpremise
      split at hstep
      · rename_i hfresh
        cases hstep
        exact .derived hpremise (Facts.standing_eq_fresh_iff.mp hfresh)
      · cases hstep
      · rename_i existing hopposed
        obtain ⟨hvalue, hpolarity⟩ := Facts.standing_eq_opposed_iff.mp hopposed
        cases hstep
        exact .contradiction hpremise hvalue hpolarity
    · cases hstep
  · intro htakes
    cases htakes with
    | derived hpremise hfresh =>
      rw [stepOn?, if_pos hpremise, Facts.standing_eq_fresh_iff.mpr hfresh]
    | contradiction hpremise hvalue hopposed =>
      rw [stepOn?, if_pos hpremise, Facts.standing_eq_opposed_iff.mpr ⟨hvalue, hopposed⟩]

theorem Rule.stepOn?_justified {assumed : Literal → Prop} {rules : List Rule} (rule : Rule)
    (hrule : rule ∈ rules) {facts : Facts} {step : Step} (hstep : rule.stepOn? facts = some step) :
    step.JustifiedBy assumed (· ∈ rules) facts := by
  cases stepOn?_eq_some_iff.mp hstep with
  | derived hpremise hfresh => exact ⟨hfresh, rule, hrule, rfl, rfl, hpremise⟩
  | contradiction hpremise hvalue hopposed =>
    exact ⟨hvalue, hopposed, nofun, fun _ => ⟨rule, hrule, rfl, rfl, hpremise⟩⟩

namespace Session

/-- A loop of calls goes through moves if every turn of it does. -/
theorem foldl_reaches {α : Type} {assumed : Literal → Prop} {turn : Session → α → Session}
    {items : List α}
    (hturn : ∀ item ∈ items, ∀ session : Session,
      Account.Reaches assumed session.account (turn session item).account)
    (session : Session) :
    Account.Reaches assumed session.account (items.foldl turn session).account := by
  induction items generalizing session with
  | nil => exact .refl
  | cons item rest ih =>
    have hfirst := hturn item List.mem_cons_self session
    have hrest := ih (fun next hnext => hturn next (List.mem_cons_of_mem _ hnext))
      (turn session item)
    exact hfirst.trans hrest

theorem foldl_keeps {α β : Type} {turn : Session → α → Session} (view : Session → β)
    (hturn : ∀ session item, view (turn session item) = view session) (items : List α)
    (session : Session) : view (items.foldl turn session) = view session := by
  induction items generalizing session with
  | nil => rfl
  | cons item rest ih => rw [List.foldl_cons, ih, hturn]

/-- An assumption is learnt, or passed over or noted as repeated, or noted as a contradiction. -/
theorem assume_reaches {assumed : Literal → Prop} (session : Session) (text : String)
    {literal : Literal} (hliteral : assumed literal) :
    Account.Reaches assumed session.account (session.assume text literal).account := by
  unfold assume
  split
  · rename_i hfresh
    exact .single (.take session.account (.assumed literal)
      ⟨hliteral, Facts.standing_eq_fresh_iff.mp hfresh⟩)
  · rename_i hknown
    dsimp only
    split
    · refine .single (.take session.account (.repeated literal) ?_)
      exact beq_iff_eq.mpr (Facts.standing_eq_known_iff.mp hknown)
    · exact .refl
  · rename_i existing hopposed
    obtain ⟨hvalue, hpolarity⟩ := Facts.standing_eq_opposed_iff.mp hopposed
    refine .single (.take session.account (.contradiction .assumption text literal existing) ?_)
    exact ⟨hvalue, hpolarity, fun _ => hliteral, nofun⟩

theorem readAssumption_reaches {assumed : Literal → Prop} (session : Session) (entry : String)
    (hentry : ∀ literal, Literal.ofEntry? entry = some literal → assumed literal) :
    Account.Reaches assumed session.account (session.readAssumption entry).account := by
  unfold readAssumption
  dsimp only
  split
  · exact .refl
  · cases hparse : Literal.parse (Text.trim entry) with
    | ok literal =>
      have hliteral : assumed literal := by
        apply hentry
        simp [Literal.ofEntry?, hparse, Except.toOption]
      exact assume_reaches (session.record _) (Text.trim entry) hliteral
    | error error =>
      exact .single (.take session.account (.skippedAssumption (Text.trim entry) error) trivial)

theorem readRule_reaches {assumed : Literal → Prop} (session : Session) (text : String) :
    Account.Reaches assumed session.account (session.readRule text).account := by
  unfold readRule
  dsimp only
  cases hparse : Rule.parse text with
  | ok rule =>
    refine .single (.addRule session.account rule ?_)
    rw [Rule.source_of_parse hparse, hparse]
  | error error =>
    dsimp only
    split
    · exact .single (.take session.account (.invalidRuleFormat text) trivial)
    · exact .single (.take session.account (.invalidRule text error) trivial)

/-- A rule's turn is the one step it takes on the facts, or nothing. -/
theorem account_applyRule (session : Session) (rule : Rule) :
    (session.applyRule rule).account =
      (rule.stepOn? session.facts).elim session.account session.account.take := by
  unfold applyRule Rule.stepOn?
  split
  · cases session.facts.standing rule.conclusion <;> rfl
  · rfl

theorem applyRule_reaches {assumed : Literal → Prop} (session : Session) {rule : Rule}
    (hrule : rule ∈ session.rules) :
    Account.Reaches assumed session.account (session.applyRule rule).account := by
  rw [account_applyRule]
  cases hstep : rule.stepOn? session.facts with
  | none => exact .refl
  | some step => exact .single (.take session.account step (rule.stepOn?_justified hrule hstep))

@[simp] theorem rules_applyRule (session : Session) (rule : Rule) :
    (session.applyRule rule).rules = session.rules := by
  change (session.applyRule rule).account.rules = session.rules
  rw [account_applyRule]
  cases rule.stepOn? session.facts <;> rfl

@[simp] theorem config_applyRule (session : Session) (rule : Rule) :
    (session.applyRule rule).config = session.config := by
  unfold applyRule
  split
  · split <;> rfl
  · rfl

@[simp] theorem interrupt_applyRule (session : Session) (rule : Rule) :
    (session.applyRule rule).interrupt = session.interrupt := by
  unfold applyRule
  split
  · split <;> rfl
  · rfl

theorem foldl_applyRule_reaches {assumed : Literal → Prop} {rules : List Rule} {session : Session}
    (hrules : rules ⊆ session.rules) :
    Account.Reaches assumed session.account (rules.foldl applyRule session).account := by
  induction rules generalizing session with
  | nil => exact .refl
  | cons rule rest ih =>
    have hfirst : Account.Reaches assumed session.account (session.applyRule rule).account :=
      applyRule_reaches session (hrules List.mem_cons_self)
    have hrest : rest ⊆ (session.applyRule rule).rules := by
      rw [rules_applyRule]
      exact fun _ hmem => hrules (List.mem_cons_of_mem _ hmem)
    exact hfirst.trans (ih hrest)

@[simp] theorem rules_pass (session : Session) (number : Nat) :
    (session.pass number).rules = session.rules :=
  foldl_keeps Session.rules rules_applyRule session.rules (session.beginPass number)

@[simp] theorem config_pass (session : Session) (number : Nat) :
    (session.pass number).config = session.config :=
  foldl_keeps Session.config config_applyRule session.rules (session.beginPass number)

@[simp] theorem interrupt_pass (session : Session) (number : Nat) :
    (session.pass number).interrupt = session.interrupt :=
  foldl_keeps Session.interrupt interrupt_applyRule session.rules (session.beginPass number)

theorem pass_reaches {assumed : Literal → Prop} (session : Session) (number : Nat) :
    Account.Reaches assumed session.account (session.pass number).account := by
  have hbegin : Account.Reaches assumed session.account (session.beginPass number).account :=
    .single (.countPass session.account)
  have hturns : session.rules ⊆ (session.beginPass number).rules := fun _ => id
  exact hbegin.trans (foldl_applyRule_reaches hturns)

@[simp] theorem account_askInterrupt (session : Session) :
    session.askInterrupt.2.account = session.account := by
  unfold askInterrupt
  split <;> rfl

@[simp] theorem config_askInterrupt (session : Session) :
    session.askInterrupt.2.config = session.config := by
  unfold askInterrupt
  split <;> rfl

/-- What a question to the interrupt and a pass each preserve, the whole loop preserves. -/
theorem chainFrom_preserves {invariant : Session → Prop}
    (hask : ∀ session, invariant session → invariant session.askInterrupt.2)
    (hpass : ∀ session number, invariant session → invariant (session.pass number))
    (clock : Clock) (remaining passes : Nat) {session : Session} (h : invariant session) :
    invariant (chainFrom clock remaining passes session).2.2 := by
  induction remaining generalizing passes session with
  | zero => exact h
  | succ remaining ih =>
    have hasked := hask session h
    unfold chainFrom
    split
    · exact h
    · split
      · rename_i asked heq
        rwa [heq] at hasked
      · rename_i asked heq
        rw [heq] at hasked
        have hpassed := hpass asked (passes + 1) hasked
        dsimp only
        split
        · exact ih (passes + 1) hpassed
        · exact hpassed

theorem chainFrom_reaches {assumed : Literal → Prop} (clock : Clock) (remaining passes : Nat)
    (session : Session) :
    Account.Reaches assumed session.account
      (chainFrom clock remaining passes session).2.2.account := by
  refine @chainFrom_preserves (fun later => Account.Reaches assumed session.account later.account)
    ?_ ?_ clock remaining passes session .refl
  · intro later hlater
    rwa [account_askInterrupt]
  · intro later number hlater
    exact hlater.trans (pass_reaches later number)

theorem chain_reaches {assumed : Literal → Prop} (session : Session) (clock : Clock) :
    Account.Reaches assumed session.account (session.chain clock).2.account :=
  (chainFrom_reaches clock _ 0 session).tail (.take _ (.ended _) trivial)

theorem answer_reaches {assumed : Literal → Prop} (session : Session) (text : String) :
    Account.Reaches assumed session.account (session.answer text).2.account := by
  unfold answer
  dsimp only
  cases Literal.parse (Text.trim text) with
  | ok literal => exact .refl
  | error error =>
    exact .single (.take session.account (.invalidAnswer (Text.trim text) error) trivial)

end Session

end ForwardChaining
