import Mathlib.Data.List.Basic
import ForwardChaining.Proofs.Formula.Fragments

namespace ForwardChaining.Formula

/-- The least that has to come next where a formula breaks off. -/
def Due.filler : Due → Token
  | .operand => .atom "A"
  | .closing => .rightParen

/-- What breaks off is completed by what is due and the closing parentheses that are missing. -/
theorem Begins.completes {due : Due} {level : Level} {tokens : List Token} {nesting height : Nat}
    (h : Begins due level tokens nesting height) :
    ∃ count formula nesting', Derives level
      (tokens ++ due.filler :: List.replicate count .rightParen) formula nesting' := by
  induction h with
  | here hdue =>
    subst hdue
    exact ⟨0, _, _, .atom "A"⟩
  | unclosed hdue inner =>
    subst hdue
    exact ⟨0, _, _, .group inner⟩
  | group inner ih =>
    obtain ⟨count, formula, nesting', hinner⟩ := ih
    refine ⟨count + 1, formula, nesting' + 1, ?_⟩
    have hgroup := Derives.group hinner
    rwa [List.append_assoc, List.cons_append, ← List.replicate_succ'] at hgroup
  | primary inner ih =>
    obtain ⟨count, formula, nesting', hinner⟩ := ih
    exact ⟨count, formula, nesting', .primary hinner⟩
  | not inner ih =>
    obtain ⟨count, formula, nesting', hinner⟩ := ih
    exact ⟨count, _, _, .not hinner⟩
  | operand inner ih =>
    obtain ⟨count, formula, nesting', hinner⟩ := ih
    exact ⟨count, formula, nesting', .operand hinner⟩
  | and first next ih =>
    obtain ⟨count, formula, nesting', hnext⟩ := ih
    have hjoined := Derives.and first hnext
    rw [← List.cons_append, ← List.append_assoc] at hjoined
    exact ⟨count, _, _, hjoined⟩
  | conjunction inner ih =>
    obtain ⟨count, formula, nesting', hinner⟩ := ih
    exact ⟨count, formula, nesting', .conjunction hinner⟩
  | or first next ih =>
    obtain ⟨count, formula, nesting', hnext⟩ := ih
    have hjoined := Derives.or first hnext
    rw [← List.cons_append, ← List.append_assoc] at hjoined
    exact ⟨count, _, _, hjoined⟩

/-- Closing parentheses at the end of tokens stand behind any other token of theirs. -/
theorem exists_front_of_closed (tokens : List Token) {tokens' front : List Token} {token : Token}
    {count : Nat}
    (h : tokens ++ token :: tokens' = front ++ List.replicate (count + 1) .rightParen)
    (htoken : token ≠ .rightParen) :
    ∃ front', front = tokens ++ token :: front' ∧
      tokens' = front' ++ List.replicate (count + 1) .rightParen := by
  rcases List.append_eq_append_iff.mp h with ⟨between, hfront, hclosed⟩ | ⟨between, _, hclosed⟩
  · cases between with
    | nil => exact absurd (List.cons_eq_cons.mp hclosed).1 htoken
    | cons other front' =>
      obtain ⟨rfl, htokens'⟩ := List.cons_eq_cons.mp hclosed
      exact ⟨front', hfront, htokens'⟩
  · have hmem : token ∈ List.replicate (count + 1) Token.rightParen := by simp [hclosed]
    exact absurd (List.eq_of_mem_replicate hmem) htoken

/-- Without its closing parentheses at the end, a formula breaks off where one of them is due. -/
theorem begins_of_derives_closed {level : Level} {tokens : List Token} {formula : Formula}
    {nesting : Nat} (h : Derives level tokens formula nesting) {front : List Token} {count : Nat}
    (htokens : tokens = front ++ List.replicate (count + 1) .rightParen) :
    ∃ nesting' height, Begins .closing level front nesting' height := by
  induction h generalizing front count with
  | atom name =>
    have hlast := congrArg List.getLast? htokens
    simp [List.replicate_succ'] at hlast
  | @group tokens formula nesting inner ih =>
    rw [List.replicate_succ', ← List.append_assoc, ← List.cons_append] at htokens
    have hfront := List.append_cancel_right htokens
    cases count with
    | zero =>
      rw [List.replicate_zero, List.append_nil] at hfront
      subst hfront
      exact ⟨_, _, .unclosed rfl inner⟩
    | succ count =>
      obtain ⟨front', rfl, hinner⟩ := exists_front_of_closed [] hfront nofun
      obtain ⟨nesting', height, hbegins⟩ := ih hinner
      exact ⟨_, _, .group hbegins⟩
  | primary inner ih =>
    obtain ⟨nesting', height, hbegins⟩ := ih htokens
    exact ⟨_, _, .primary hbegins⟩
  | not inner ih =>
    obtain ⟨front', rfl, hinner⟩ := exists_front_of_closed [] htokens nofun
    obtain ⟨nesting', height, hbegins⟩ := ih hinner
    exact ⟨_, _, .not hbegins⟩
  | operand inner ih =>
    obtain ⟨nesting', height, hbegins⟩ := ih htokens
    exact ⟨_, _, .operand hbegins⟩
  | and first next _ ih =>
    obtain ⟨front', rfl, hnext⟩ := exists_front_of_closed _ htokens nofun
    obtain ⟨nesting', height, hbegins⟩ := ih hnext
    exact ⟨_, _, .and first hbegins⟩
  | conjunction inner ih =>
    obtain ⟨nesting', height, hbegins⟩ := ih htokens
    exact ⟨_, _, .conjunction hbegins⟩
  | or first next _ ih =>
    obtain ⟨front', rfl, hnext⟩ := exists_front_of_closed _ htokens nofun
    obtain ⟨nesting', height, hbegins⟩ := ih hnext
    exact ⟨_, _, .or first hbegins⟩

/-- The tokens spell a formula, however deep. -/
def IsSentence (tokens : List Token) : Prop :=
  ∃ formula nesting, Derives .disjunction tokens formula nesting

/-- More tokens can follow so that the whole spells a formula. -/
def IsViable (tokens : List Token) : Prop :=
  ∃ rest, IsSentence (tokens ++ rest)

/-- The tokens keep the bounds and break off before they spell a formula. -/
def BreaksOff (due : Due) (tokens : List Token) : Prop :=
  ∃ nesting height, Begins due .disjunction tokens nesting height ∧ nesting ≤ depthLimit ∧
    height ≤ depthLimit

/-- The tokens are read as a formula up to a part that cannot go on with it. -/
def LeavesOver (tokens rest : List Token) : Prop :=
  ∃ front, tokens = front ++ rest ∧ (∃ formula, ofTokens front = .ok formula) ∧ rest ≠ [] ∧
    rest.head? ≠ some .and ∧ rest.head? ≠ some .or

theorem ofTokens_of_begins {due : Due} {front rest : List Token} {nesting height : Nat}
    {error : ReadError} (h : Begins due .disjunction front nesting height)
    (hstuck : Stuck due rest error) :
    ofTokens (front ++ rest) =
      guarded (nesting ≤ depthLimit ∧ height ≤ depthLimit) (.error error) := by
  have hparser : Parser.disjunction depthLimit (front ++ rest) = _ :=
    Parser.ofLevel_of_begins h hstuck depthLimit
  rw [ofTokens, hparser, guarded_bind]
  rfl

theorem BreaksOff.ofTokens_eq {due : Due} {front rest : List Token} {error : ReadError}
    (h : BreaksOff due front) (hstuck : Stuck due rest error) :
    ofTokens (front ++ rest) = .error error := by
  obtain ⟨nesting, height, hbegins, hfits⟩ := h
  rw [ofTokens_of_begins hbegins hstuck, guarded_of_true hfits]

/-- What is left over is what the parser does not read. -/
theorem LeavesOver.disjunction_eq {tokens rest : List Token} (h : LeavesOver tokens rest) :
    ∃ formula height, Parser.disjunction depthLimit tokens = .ok ⟨formula, height, rest⟩ := by
  obtain ⟨front, rfl, ⟨formula, hfront⟩, _, hand, hor⟩ := h
  obtain ⟨nesting, hderives, hfits⟩ := derives_of_ofTokens hfront
  have hreads := Parser.reads_of_derives hderives depthLimit rest hand
  rw [Parser.extend_of_head?_ne hor, guarded_of_true hfits] at hreads
  exact ⟨formula, formula.height, hreads⟩

theorem LeavesOver.ofTokens_eq {tokens rest : List Token} (h : LeavesOver tokens rest) :
    ofTokens tokens = .error (.trailingTokens (Token.spaced rest)) := by
  obtain ⟨formula, height, hparsed⟩ := h.disjunction_eq
  obtain ⟨front, _, _, hne, _⟩ := h
  rw [ofTokens, hparsed]
  cases rest with
  | nil => exact absurd rfl hne
  | cons token rest => rfl

/-- Every refusal has one of three reasons: too many tokens deepen what they stand in, or the tokens
    break off where something else is due, or some are left over. -/
theorem refusal_cases {tokens : List Token} {error : ReadError}
    (h : ofTokens tokens = .error error) :
    (error = .tooDeep depthLimit ∧ depthLimit < tokens.countP Token.deepens) ∨
      (∃ due front rest, tokens = front ++ rest ∧ BreaksOff due front ∧ Stuck due rest error) ∨
      ∃ rest, LeavesOver tokens rest ∧ error = .trailingTokens (Token.spaced rest) := by
  rcases ReadError.bind_eq_error_iff.mp h with hrefused | ⟨parsed, hparsed, h⟩
  · have hfailure := Parser.disjunction_isFailure Parser.operand_isFailure hrefused
    rw [Parser.IsFailure, Nat.min_self] at hfailure
    refine hfailure.imp_right ?_
    rintro ⟨due, front, rest, nesting, height, htokens, hbegins, hnesting, hheight, hstuck⟩
    exact .inl ⟨due, front, rest, htokens, ⟨nesting, height, hbegins, hnesting, hheight⟩, hstuck⟩
  · obtain ⟨consumed, nesting, htokens, hderives, hnesting, hheight, hbound⟩ :=
      Parser.disjunction_isReading Parser.operand_isReading hparsed
    have hconsumed : ofTokens consumed = .ok parsed.formula := by
      rw [ofTokens_of_derives hderives, guarded_of_true ⟨hnesting, hheight ▸ hbound⟩]
    obtain ⟨hand, hor⟩ := Parser.disjunction_rest hparsed
    obtain ⟨formula, height, rest⟩ := parsed
    cases rest with
    | nil => cases h
    | cons token rest =>
      cases h
      exact .inr (.inr ⟨_, ⟨consumed, htokens, ⟨formula, hconsumed⟩, nofun, hand, hor⟩, rfl⟩)

theorem ofTokens_eq_unexpectedEnd_iff {tokens : List Token} :
    ofTokens tokens = .error .unexpectedEnd ↔ BreaksOff .operand tokens := by
  constructor
  · intro h
    rcases refusal_cases h with ⟨herror, _⟩ | ⟨due, front, rest, rfl, hbreaks, hstuck⟩ |
      ⟨rest, _, herror⟩
    · cases herror
    · cases hstuck
      rwa [List.append_nil]
    · cases herror
  · intro h
    have heq := h.ofTokens_eq .ended
    rwa [List.append_nil] at heq

theorem ofTokens_eq_unexpectedToken_iff {tokens : List Token} {text : String} :
    ofTokens tokens = .error (.unexpectedToken text) ↔
      ∃ front token rest, tokens = front ++ token :: rest ∧ token.beginsOperand = false ∧
        token.text = text ∧ BreaksOff .operand front := by
  constructor
  · intro h
    rcases refusal_cases h with ⟨herror, _⟩ | ⟨due, front, rest, rfl, hbreaks, hstuck⟩ |
      ⟨rest, _, herror⟩
    · cases herror
    · cases hstuck with
      | token token rest hbegins => exact ⟨front, token, rest, rfl, hbegins, rfl, hbreaks⟩
    · cases herror
  · rintro ⟨front, token, rest, rfl, hbegins, rfl, hbreaks⟩
    exact hbreaks.ofTokens_eq (.token token rest hbegins)

theorem ofTokens_eq_trailingTokens_iff {tokens : List Token} {text : String} :
    ofTokens tokens = .error (.trailingTokens text) ↔
      ∃ rest, LeavesOver tokens rest ∧ text = Token.spaced rest := by
  constructor
  · intro h
    rcases refusal_cases h with ⟨herror, _⟩ | ⟨due, front, rest, _, _, hstuck⟩ |
      ⟨rest, hleaves, herror⟩
    · cases herror
    · cases hstuck
    · cases herror
      exact ⟨rest, hleaves, rfl⟩
  · rintro ⟨rest, hleaves, rfl⟩
    exact hleaves.ofTokens_eq

theorem ofTokens_eq_missingClosingParenthesis_iff {tokens : List Token} :
    ofTokens tokens = .error .missingClosingParenthesis ↔
      ∃ front rest, tokens = front ++ rest ∧ BreaksOff .closing front ∧
        ∀ token ∈ rest.head?, token.beginsOperand = true := by
  constructor
  · intro h
    rcases refusal_cases h with ⟨herror, _⟩ | ⟨due, front, rest, rfl, hbreaks, hstuck⟩ |
      ⟨rest, _, herror⟩
    · cases herror
    · cases hstuck with
      | unclosed rest hbegins => exact ⟨front, rest, rfl, hbreaks, hbegins⟩
    · cases herror
  · rintro ⟨front, rest, rfl, hbreaks, hbegins⟩
    exact hbreaks.ofTokens_eq (.unclosed rest hbegins)

theorem lt_of_ofTokens_eq_tooDeep {tokens : List Token} {limit : Nat}
    (h : ofTokens tokens = .error (.tooDeep limit)) :
    depthLimit < tokens.countP Token.deepens := by
  rcases refusal_cases h with ⟨_, hmany⟩ | ⟨due, front, rest, _, _, hstuck⟩ | ⟨rest, _, herror⟩
  · exact hmany
  · cases hstuck
  · cases herror

theorem BreaksOff.isViable {due : Due} {tokens : List Token} (h : BreaksOff due tokens) :
    IsViable tokens := by
  obtain ⟨nesting, height, hbegins, _⟩ := h
  obtain ⟨count, formula, nesting', hderives⟩ := hbegins.completes
  exact ⟨_, formula, nesting', hderives⟩

theorem not_isSentence_of_unexpectedEnd {tokens : List Token}
    (h : ofTokens tokens = .error .unexpectedEnd) : ¬ IsSentence tokens := by
  rintro ⟨formula, nesting, hderives⟩
  rw [ofTokens_of_derives hderives, guarded] at h
  split at h <;> cases h

/-- The error tells where tokens stop being the beginning of a formula. They run out where an
    operand is due, and can be completed; or the first token that cannot begin the operand that is
    due is told; or all the tokens behind a whole formula are; or parentheses are not closed where
    nothing else could follow. They are too deep only if more than 256 of them deepen what they
    stand in. -/
theorem ofTokens_refusals (tokens : List Token) :
    (ofTokens tokens = .error .unexpectedEnd → IsViable tokens ∧ ¬ IsSentence tokens) ∧
    (∀ text, ofTokens tokens = .error (.unexpectedToken text) ↔
      ∃ front token rest, tokens = front ++ token :: rest ∧
        (token = .rightParen ∨ token = .and ∨ token = .or) ∧ token.text = text ∧
        ofTokens front = .error .unexpectedEnd) ∧
    (∀ text, ofTokens tokens = .error (.trailingTokens text) ↔
      ∃ front rest, tokens = front ++ rest ∧ (∃ formula, ofTokens front = .ok formula) ∧
        rest ≠ [] ∧ rest.head? ≠ some .and ∧ rest.head? ≠ some .or ∧
        text = String.intercalate " " (rest.map Token.text)) ∧
    (ofTokens tokens = .error .missingClosingParenthesis →
      ∃ front rest count, tokens = front ++ rest ∧
        IsSentence (front ++ List.replicate (count + 1) .rightParen) ∧
        ∀ token ∈ rest.head?, token = .leftParen ∨ token = .not ∨ ∃ name, token = .atom name) ∧
    (∀ front rest count, tokens = front ++ rest →
      IsSentence (front ++ List.replicate (count + 1) .rightParen) →
      (∀ token ∈ rest.head?, token = .leftParen ∨ token = .not ∨ ∃ name, token = .atom name) →
      ofTokens tokens = .error .missingClosingParenthesis ∨
        ofTokens tokens = .error (.tooDeep 256)) ∧
    (tokens.countP Token.deepens ≤ 256 → ∀ limit, ofTokens tokens ≠ .error (.tooDeep limit)) := by
  have hends : ∀ token : Token, token.beginsOperand = false ↔
      token = .rightParen ∨ token = .and ∨ token = .or := by
    intro token
    cases token <;> simp [Token.beginsOperand]
  have hbegins : ∀ token : Token, token.beginsOperand = true ↔
      token = .leftParen ∨ token = .not ∨ ∃ name, token = .atom name := by
    intro token
    cases token <;> simp [Token.beginsOperand]
  simp only [← hends, ← hbegins]
  refine ⟨?_, ?_, ?_, ?_, ?_, ?_⟩
  · intro h
    exact ⟨(ofTokens_eq_unexpectedEnd_iff.mp h).isViable, not_isSentence_of_unexpectedEnd h⟩
  · intro text
    rw [ofTokens_eq_unexpectedToken_iff]
    simp only [ofTokens_eq_unexpectedEnd_iff]
  · intro text
    rw [ofTokens_eq_trailingTokens_iff]
    constructor
    · rintro ⟨rest, ⟨front, htokens, hfront, hne, hand, hor⟩, htext⟩
      exact ⟨front, rest, htokens, hfront, hne, hand, hor, htext⟩
    · rintro ⟨front, rest, htokens, hfront, hne, hand, hor, htext⟩
      exact ⟨rest, ⟨front, htokens, hfront, hne, hand, hor⟩, htext⟩
  · intro h
    obtain ⟨front, rest, htokens, ⟨nesting, height, hfront, _⟩, hrest⟩ :=
      ofTokens_eq_missingClosingParenthesis_iff.mp h
    obtain ⟨count, formula, nesting', hderives⟩ := hfront.completes
    exact ⟨front, rest, count, htokens, ⟨formula, nesting', hderives⟩, hrest⟩
  · rintro front rest count rfl ⟨formula, nesting, hderives⟩ hrest
    obtain ⟨nesting', height, hfront⟩ := begins_of_derives_closed hderives rfl
    rw [ofTokens_of_begins hfront (.unclosed rest hrest), guarded]
    split
    · exact .inl rfl
    · exact .inr rfl
  · intro hfew limit h
    have hmany : 256 < tokens.countP Token.deepens := lt_of_ofTokens_eq_tooDeep h
    omega

/-- `(A ∧ (B C` lacks two closing parentheses before `C`, and `A ∧` lacks an operand before `∨`. -/
theorem ofTokens_refusals_unclosed :
    ofTokens [.leftParen, .atom "A", .and, .leftParen, .atom "B", .atom "C"] =
        .error .missingClosingParenthesis ∧
      ofTokens [.atom "A", .and] = .error .unexpectedEnd ∧ IsViable [.atom "A", .and] ∧
      ofTokens [.atom "A", .and, .or, .atom "B"] = .error (.unexpectedToken "∨") := by
  have hsentence : ofTokens [.leftParen, .atom "A", .and, .leftParen, .atom "B", .rightParen,
      .rightParen] = .ok (.and (.atom "A") (.atom "B")) := by decide +kernel
  obtain ⟨nesting, hderives, _⟩ := derives_of_ofTokens hsentence
  obtain ⟨_, _, _, _, hunclosed, hshallow⟩ :=
    ofTokens_refusals [.leftParen, .atom "A", .and, .leftParen, .atom "B", .atom "C"]
  have hmissing := (hunclosed [.leftParen, .atom "A", .and, .leftParen, .atom "B"] [.atom "C"] 1 rfl
    ⟨_, nesting, hderives⟩ (by simp)).resolve_right (hshallow (by decide) 256)
  have hend : ofTokens [.atom "A", .and] = .error .unexpectedEnd := by decide +kernel
  have htoken := ((ofTokens_refusals [.atom "A", .and, .or, .atom "B"]).2.1 "∨").mpr
    ⟨[.atom "A", .and], .or, [.atom "B"], rfl, .inr (.inr rfl), rfl, hend⟩
  exact ⟨hmissing, hend, ((ofTokens_refusals _).1 hend).1, htoken⟩

end ForwardChaining.Formula
