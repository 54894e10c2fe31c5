import ForwardChaining.Proofs.Rule.RoundTrip
import ForwardChaining.Proofs.Session.Justification

namespace ForwardChaining

namespace Literal

/-- The tokens that a literal is written with: its atom, behind `¬` if it is negative. -/
def group (literal : Literal) : List Token :=
  if literal.polarity then [.atom literal.atom] else [.not, .atom literal.atom]

/-- The literals whose groups of tokens follow one another, if there is nothing else. -/
def ofGroups? : List Token → Option (List Literal)
  | [] => some []
  | .atom name :: rest => (ofGroups? rest).map (⟨name, true⟩ :: ·)
  | .not :: .atom name :: rest => (ofGroups? rest).map (⟨name, false⟩ :: ·)
  | _ => none

theorem ofGroups?_flatMap_group (literals : List Literal) :
    ofGroups? (literals.flatMap group) = some literals := by
  induction literals with
  | nil => rfl
  | cons literal rest ih =>
    obtain ⟨atom, polarity⟩ := literal
    cases polarity <;> simp [group, ofGroups?, ih]

theorem spelling_formula (literal : Literal) : literal.formula.spelling = literal.group := by
  obtain ⟨atom, polarity⟩ := literal
  cases polarity <;> rfl

theorem scans_group {literal : Literal} (hname : Text.IsAtomName literal.atom) :
    Token.Scans literal.render.toList literal.group := by
  rw [← render_formula, ← spelling_formula]
  apply Formula.scans_render
  rw [atoms_formula]
  exact List.forall_mem_singleton.mpr hname

end Literal

/-- Facts on atoms whose names can be read are written with the groups of their literals. -/
theorem Facts.tokenize_render {facts : Facts}
    (hnames : ∀ literal ∈ facts.literals, Text.IsAtomName literal.atom) :
    Token.tokenize facts.render = .ok (facts.literals.flatMap Literal.group) :=
  Token.scans_intercalate (fun literal hliteral => Literal.scans_group (hnames literal hliteral)) 0

namespace Account

/-- The atoms that have a value, and those that a rule may give one, have names that can be
    read. -/
structure Named (account : Account) : Prop where
  facts : ∀ literal ∈ account.facts.literals, Text.IsAtomName literal.atom
  rules : ∀ rule ∈ account.rules, Text.IsAtomName rule.conclusion.atom

/-- What a justified step learns was assumed or is the conclusion of a rule. -/
theorem isAtomName_of_learnt {assumed : Literal → Prop} {account : Account} {step : Step}
    (hassumed : ∀ literal, assumed literal → Text.IsAtomName literal.atom) (h : account.Named)
    (hstep : step.JustifiedBy assumed (· ∈ account.rules) account.facts) {literal : Literal}
    (hlearnt : literal ∈ step.learnt?.toList) : Text.IsAtomName literal.atom := by
  cases step with
  | assumed assumption =>
    obtain rfl : literal = assumption := List.mem_singleton.mp hlearnt
    exact hassumed literal hstep.1
  | derived source conclusion =>
    obtain rfl : literal = conclusion := List.mem_singleton.mp hlearnt
    obtain ⟨rule, hrule, _, rfl, _⟩ := hstep.2
    exact h.rules rule hrule
  | repeated | skippedAssumption | invalidRuleFormat | invalidRule | contradiction | invalidAnswer
  | ended => cases hlearnt

theorem Move.preserves_named {assumed : Literal → Prop} {account next : Account}
    (hassumed : ∀ literal, assumed literal → Text.IsAtomName literal.atom)
    (hmove : Move assumed account next) (h : account.Named) : next.Named := by
  cases hmove with
  | take step hstep =>
    refine ⟨fun literal hliteral => ?_, h.rules⟩
    change literal ∈ (account.facts.after step).literals at hliteral
    rw [literals_after_of_justified hstep, List.mem_append] at hliteral
    rcases hliteral with hold | hlearnt
    · exact h.facts literal hold
    · exact isAtomName_of_learnt hassumed h hstep hlearnt
  | addRule rule hparse =>
    refine ⟨h.facts, fun other hother => ?_⟩
    rcases List.mem_append.mp hother with hold | hnew
    · exact h.rules other hold
    · rw [List.mem_singleton.mp hnew]
      exact Rule.isAtomName_of_parse hparse
  | countPass => exact ⟨h.facts, h.rules⟩

theorem Reaches.preserves_named {assumed : Literal → Prop} {account final : Account}
    (hassumed : ∀ literal, assumed literal → Text.IsAtomName literal.atom)
    (hreaches : Reaches assumed account final) (h : account.Named) : final.Named := by
  induction hreaches with
  | refl => exact h
  | tail _ hmove ih => exact hmove.preserves_named hassumed ih

end Account

theorem Literal.isAtomName_of_ofEntry? {entry : String} {literal : Literal}
    (hentry : ofEntry? entry = some literal) : Text.IsAtomName literal.atom := by
  unfold ofEntry? at hentry
  cases hparse : parse (Text.trim entry) with
  | error error => simp [hparse, Except.toOption] at hentry
  | ok read =>
    obtain rfl : read = literal := by simpa [hparse, Except.toOption] using hentry
    exact isAtomName_of_parse hparse

theorem Operation.isAtomName_of_mem_assumptions {operation : Operation} {literal : Literal}
    (hmem : literal ∈ operation.assumptions) : Text.IsAtomName literal.atom := by
  cases operation with
  | readAssumption entry => exact Literal.isAtomName_of_ofEntry? (Option.mem_toList.mp hmem)
  | readAssumptions entries =>
    obtain ⟨entry, _, hentry⟩ := List.mem_filterMap.mp hmem
    exact Literal.isAtomName_of_ofEntry? hentry
  | readRule | readRules | chain | answer | reportOn | configure | interruptBy => cases hmem

namespace Session

/-- Whatever is done with a session, its atoms have names that can be read. -/
theorem run_named (config : Config) (interrupt : Option Interrupt) (observed : Option (List Step))
    (operations : List Operation) :
    ((fresh config interrupt observed).run operations).account.Named := by
  refine (run_reaches _ operations).preserves_named (fun literal hliteral => ?_) ⟨nofun, nofun⟩
  obtain ⟨operation, _, hmem⟩ := List.mem_flatMap.mp hliteral
  exact Operation.isAtomName_of_mem_assumptions hmem

/-- The facts of any run can be read back from how they are written: the tokens are those of the
    literals in order, an atom or `¬` and an atom for each, and no other literals have the same
    tokens. So runs whose facts are written alike have the same facts in the same order. -/
theorem run_facts_read_back (config : Config) (interrupt : Option Interrupt)
    (observed : Option (List Step)) (operations : List Operation) :
    let facts := ((fresh config interrupt observed).run operations).facts
    Token.tokenize facts.render = .ok (facts.literals.flatMap Literal.group) ∧
    Literal.ofGroups? (facts.literals.flatMap Literal.group) = some facts.literals ∧
    ∀ config' interrupt' observed' operations',
      let other := ((fresh config' interrupt' observed').run operations').facts
      other.render = facts.render → other.literals = facts.literals := by
  intro facts
  have htokens := Facts.tokenize_render (run_named config interrupt observed operations).facts
  refine ⟨htokens, Literal.ofGroups?_flatMap_group _, ?_⟩
  intro config' interrupt' observed' operations' other hsame
  have hother := Facts.tokenize_render (run_named config' interrupt' observed' operations').facts
  have hgroups : other.literals.flatMap Literal.group = facts.literals.flatMap Literal.group := by
    apply Except.ok.inj (ε := ReadError)
    calc Except.ok (other.literals.flatMap Literal.group)
        = Token.tokenize other.render := hother.symm
      _ = Token.tokenize facts.render := congrArg Token.tokenize hsame
      _ = .ok (facts.literals.flatMap Literal.group) := htokens
  apply Option.some.inj
  rw [← Literal.ofGroups?_flatMap_group other.literals, hgroups, Literal.ofGroups?_flatMap_group]

/-- Facts that one run assumes and another derives are written alike, and are the same facts. -/
theorem run_facts_read_back_derived :
    let session := (fresh {} none none).run
      [.readAssumptions ["(¬A)", " B2"], .readRule "B2 ∧ ¬A → Việt", .chain fun _ => 0, .answer "A"]
    let other := (fresh {} none none).run
      [.readAssumption "¬A", .readAssumption "B2", .readAssumption "Việt"]
    session.facts.render = "¬A B2 Việt" ∧
      Token.tokenize "¬A B2 Việt" = .ok [.not, .atom "A", .atom "B2", .atom "Việt"] ∧
      session.facts.literals = other.facts.literals := by
  intro session other
  have hsession : session.facts.render = "¬A B2 Việt" := by decide +kernel
  have hother : other.facts.render = "¬A B2 Việt" := by decide +kernel
  obtain ⟨htokens, _, _⟩ := run_facts_read_back {} none none
    [.readAssumption "¬A", .readAssumption "B2", .readAssumption "Việt"]
  refine ⟨hsession, ?_, ?_⟩
  · rw [← hother, htokens]
    decide +kernel
  · exact (run_facts_read_back {} none none
      [.readAssumption "¬A", .readAssumption "B2", .readAssumption "Việt"]).2.2 {} none none
      [.readAssumptions ["(¬A)", " B2"], .readRule "B2 ∧ ¬A → Việt", .chain fun _ => 0, .answer "A"]
      (hsession.trans hother.symm)

end Session

end ForwardChaining
