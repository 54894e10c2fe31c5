import ForwardChaining.Proofs.Formula.RoundTrip

namespace ForwardChaining

namespace Token

def isParen : Token → Bool
  | .leftParen | .rightParen => true
  | _ => false

/-- Tokens that are left of others when only parentheses are taken out of them. -/
structure Thins (thin tokens : List Token) : Prop where
  sublist : thin.Sublist tokens
  others_eq : thin.filter (!·.isParen) = tokens.filter (!·.isParen)

namespace Thins

variable {thin thin' tokens tokens' : List Token}

theorem refl (tokens : List Token) : Thins tokens tokens :=
  ⟨.refl tokens, rfl⟩

theorem append (h : Thins thin tokens) (h' : Thins thin' tokens') :
    Thins (thin ++ thin') (tokens ++ tokens') := by
  refine ⟨h.sublist.append h'.sublist, ?_⟩
  rw [List.filter_append, List.filter_append, h.others_eq, h'.others_eq]

theorem cons (token : Token) (h : Thins thin tokens) : Thins (token :: thin) (token :: tokens) :=
  (Thins.refl [token]).append h

theorem parentheses (h : Thins thin tokens) :
    Thins thin (.leftParen :: (tokens ++ [.rightParen])) := by
  refine ⟨(h.sublist.trans (List.sublist_append_left _ _)).cons _, ?_⟩
  rw [h.others_eq, List.filter_cons_of_neg (by simp [isParen]), List.filter_append]
  simp [isParen]

theorem countP_isParen_le (h : Thins thin tokens) :
    thin.countP isParen ≤ tokens.countP isParen :=
  h.sublist.countP_le

end Thins

end Token

namespace Formula

open Token (Thins)

theorem thins_of_grouped {needed : Bool} {thin tokens : List Token}
    (h : Thins (grouped needed thin) tokens) : Thins thin tokens := by
  cases needed with
  | false => exact h
  | true =>
    have hinner : Thins thin (grouped true thin) := (Thins.refl thin).parentheses
    exact ⟨hinner.sublist.trans h.sublist, hinner.others_eq.trans h.others_eq⟩

/-- A looser level makes no more parentheses necessary. -/
theorem thins_loosen {level looser : Level} {formula : Formula} {tokens : List Token}
    (hlooser : looser.minimum ≤ level.minimum)
    (h : Thins (grouped (formula.precedence < level.minimum) formula.spelling) tokens) :
    Thins (grouped (formula.precedence < looser.minimum) formula.spelling) tokens := by
  by_cases hneeded : formula.precedence < looser.minimum
  · have hneeded' : formula.precedence < level.minimum := Nat.lt_of_lt_of_le hneeded hlooser
    rw [decide_eq_true hneeded'] at h
    rwa [decide_eq_true hneeded]
  · rw [decide_eq_false hneeded]
    exact thins_of_grouped h

/-- Whatever spells a formula at a level, the tokens it is written with there are among them: each
    pair of parentheses that the level makes necessary was there. -/
theorem Derives.thins {level : Level} {tokens : List Token} {formula : Formula} {nesting : Nat}
    (h : Derives level tokens formula nesting) :
    Thins (grouped (formula.precedence < level.minimum) formula.spelling) tokens := by
  induction h with
  | atom name => exact Thins.refl _
  | group inner ih =>
    -- Nothing binds less tightly than a disjunction, so what stands inside is the bare spelling.
    rename_i tokens formula nesting
    have hbare : ¬ formula.precedence < Level.disjunction.minimum := by
      cases formula <;> simp [precedence, Level.minimum]
    rw [grouped, if_neg (by simpa using hbare)] at ih
    cases hneeded : decide (formula.precedence < Level.primary.minimum) with
    | true => exact (ih.append (Thins.refl [.rightParen])).cons .leftParen
    | false => exact ih.parentheses
  | primary inner ih => exact thins_loosen (by decide) ih
  | not inner ih => exact ih.cons .not
  | operand inner ih => exact thins_loosen (by decide) ih
  | and first next ihl ihr => exact ihl.append (ihr.cons .and)
  | conjunction inner ih => exact thins_loosen (by decide) ih
  | or first next ihl ihr => exact ihl.append (ihr.cons .or)

theorem thins_spelling {tokens : List Token} {formula : Formula}
    (hparse : ofTokens tokens = .ok formula) : Thins formula.spelling tokens := by
  obtain ⟨nesting, hderives, _⟩ := derives_of_ofTokens hparse
  exact thins_of_grouped hderives.thins

/-- A formula that was read is written with the tokens it was read from, less some of their
    parentheses, and no tokens that are read as the formula have fewer parentheses. -/
theorem render_fewest_parentheses {tokens : List Token} {formula : Formula}
    (hnames : ∀ name, .atom name ∈ tokens → Text.IsAtomName name)
    (hparse : ofTokens tokens = .ok formula) :
    ∃ shown, Token.tokenize formula.render = .ok shown ∧ shown.Sublist tokens ∧
      shown.filter (!·.isParen) = tokens.filter (!·.isParen) ∧
      ∀ other, ofTokens other = .ok formula →
        shown.countP Token.isParen ≤ other.countP Token.isParen := by
  obtain ⟨nesting, hderives, _⟩ := derives_of_ofTokens hparse
  have hatoms : ∀ name ∈ formula.atoms, Text.IsAtomName name := fun name hmem =>
    hnames name (atom_mem_of_derives hderives hmem)
  obtain ⟨hsublist, hothers⟩ := thins_spelling hparse
  refine ⟨formula.spelling, scans_render hatoms 0, hsublist, hothers, ?_⟩
  intro other hother
  exact (thins_spelling hother).countP_isParen_le

/-- Of the five pairs of parentheses in `((A)) ∧ ¬((B ∨ ¬(C)))`, one is needed. -/
theorem render_fewest_parentheses_redundant :
    let tokens : List Token :=
      [.leftParen, .leftParen, .atom "A", .rightParen, .rightParen, .and, .not, .leftParen,
        .leftParen, .atom "B", .or, .not, .leftParen, .atom "C", .rightParen, .rightParen,
        .rightParen]
    let formula : Formula := .and (.atom "A") (.not (.or (.atom "B") (.not (.atom "C"))))
    ofTokens tokens = .ok formula ∧ formula.render = "A ∧ ¬(B ∨ ¬C)" ∧
      ∃ shown, Token.tokenize formula.render = .ok shown ∧ shown.Sublist tokens ∧
        shown.filter (!·.isParen) = tokens.filter (!·.isParen) ∧
        ∀ other, ofTokens other = .ok formula →
          shown.countP Token.isParen ≤ other.countP Token.isParen := by
  intro tokens formula
  have hparse : ofTokens tokens = .ok formula := by decide +kernel
  have hnames : ∀ name, .atom name ∈ tokens → Text.IsAtomName name := by
    intro name hmem
    have hname : name = "A" ∨ name = "B" ∨ name = "C" := by simpa [tokens] using hmem
    rcases hname with rfl | rfl | rfl
    all_goals decide +kernel
  exact ⟨hparse, by decide +kernel, render_fewest_parentheses hnames hparse⟩

end Formula

end ForwardChaining
