import ForwardChaining.Proofs.Formula.Recognition

namespace ForwardChaining

namespace Token

/-- Whether an operand can begin with the token. -/
def beginsOperand : Token → Bool
  | .leftParen | .not | .atom _ => true
  | .rightParen | .and | .or => false

/-- Whether the token adds to the nesting or to the height of what it stands in. -/
def deepens : Token → Bool
  | .leftParen | .not | .and | .or => true
  | .rightParen | .atom _ => false

end Token

namespace Formula

/-- What has to come next where a formula breaks off. -/
inductive Due where
  | operand
  | closing

/-- The tokens begin something at the level and break off where an operand is due, or within
    parentheses of which only the closing one is missing. The numbers are the most negations and
    opening parentheses that are open at one point, and the greatest height of a formula that is
    complete. -/
inductive Begins (due : Due) : Level → List Token → Nat → Nat → Prop where
  | here (hdue : due = .operand) : Begins due .primary [] 0 0
  | unclosed (hdue : due = .closing) {tokens : List Token} {formula : Formula} {nesting : Nat}
      (inner : Derives .disjunction tokens formula nesting) :
      Begins due .primary (.leftParen :: tokens) (nesting + 1) formula.height
  | group {tokens : List Token} {nesting height : Nat}
      (inner : Begins due .disjunction tokens nesting height) :
      Begins due .primary (.leftParen :: tokens) (nesting + 1) height
  | primary {tokens : List Token} {nesting height : Nat}
      (inner : Begins due .primary tokens nesting height) :
      Begins due .operand tokens nesting height
  | not {tokens : List Token} {nesting height : Nat}
      (inner : Begins due .operand tokens nesting height) :
      Begins due .operand (.not :: tokens) (nesting + 1) height
  | operand {tokens : List Token} {nesting height : Nat}
      (inner : Begins due .operand tokens nesting height) :
      Begins due .conjunction tokens nesting height
  | and {tokens tokens' : List Token} {left : Formula} {nesting nesting' height : Nat}
      (first : Derives .conjunction tokens left nesting)
      (next : Begins due .operand tokens' nesting' height) :
      Begins due .conjunction (tokens ++ .and :: tokens') (max nesting nesting')
        (max left.height height)
  | conjunction {tokens : List Token} {nesting height : Nat}
      (inner : Begins due .conjunction tokens nesting height) :
      Begins due .disjunction tokens nesting height
  | or {tokens tokens' : List Token} {left : Formula} {nesting nesting' height : Nat}
      (first : Derives .disjunction tokens left nesting)
      (next : Begins due .conjunction tokens' nesting' height) :
      Begins due .disjunction (tokens ++ .or :: tokens') (max nesting nesting')
        (max left.height height)

/-- The tokens do not go on with what is due, and so give the error. -/
inductive Stuck : Due → List Token → ReadError → Prop where
  | ended : Stuck .operand [] .unexpectedEnd
  | token (token : Token) (rest : List Token) (hbegins : token.beginsOperand = false) :
      Stuck .operand (token :: rest) (.unexpectedToken token.text)
  | unclosed (rest : List Token) (hbegins : ∀ token ∈ rest.head?, token.beginsOperand = true) :
      Stuck .closing rest .missingClosingParenthesis

/-- What is behind a whole formula where only a closing parenthesis is due belongs neither to the
    formula nor to the parentheses around it. -/
theorem Stuck.head?_ne {rest : List Token} {error : ReadError} (hstuck : Stuck .closing rest error)
    (token : Token) (hbegins : token.beginsOperand = false) : rest.head? ≠ some token := by
  cases hstuck with
  | unclosed rest hrest =>
    intro hhead
    rw [hrest token hhead] at hbegins
    cases hbegins

namespace Parser

/-- The parser of a level. -/
def ofLevel (allowance : Nat) : Level → Parser
  | .disjunction => disjunction allowance
  | .conjunction => conjunction allowance
  | .operand | .primary => operand allowance

/-- The loop ends with the error of an operand. -/
theorem extend_of_operator_error {operator : Token} {join : Formula → Formula → Formula}
    {operand : Parser} {kept : Prop} [Decidable kept] {left : Formula} {height : Nat}
    {tokens : List Token} {error : ReadError}
    (hoperand : operand tokens = guarded kept (.error error)) :
    extend operator join operand ⟨left, height, operator :: tokens⟩ =
      guarded kept (.error error) := by
  rw [extend]
  simp only [↓reduceIte, hoperand]
  by_cases hkept : kept
  · simp [guarded, hkept]
  · simp [guarded, hkept]

theorem operand_of_stuck {rest : List Token} {error : ReadError}
    (hstuck : Stuck .operand rest error) (allowance : Nat) :
    operand allowance rest = .error error := by
  cases hstuck with
  | ended => cases allowance <;> rfl
  | token token rest hbegins =>
    cases token with
    | leftParen | not | atom name => simp [Token.beginsOperand] at hbegins
    | rightParen | and | or => cases allowance <;> rfl

/-- Where a formula breaks off, what follows is the error, or the bounds were broken before. -/
theorem ofLevel_of_begins {due : Due} {level : Level} {tokens : List Token} {nesting height : Nat}
    (h : Begins due level tokens nesting height) {rest : List Token} {error : ReadError}
    (hstuck : Stuck due rest error) (allowance : Nat) :
    ofLevel allowance level (tokens ++ rest) =
      guarded (nesting ≤ allowance ∧ height ≤ depthLimit) (.error error) := by
  induction h generalizing allowance with
  | here hdue =>
    subst hdue
    rw [guarded_of_true ⟨Nat.zero_le _, Nat.zero_le _⟩]
    exact operand_of_stuck hstuck allowance
  | @unclosed hdue tokens formula nesting inner =>
    subst hdue
    cases allowance with
    | zero => exact (guarded_of_false (fun h => Nat.not_succ_le_zero _ h.1) _).symm
    | succ allowance =>
      have hread := reads_of_derives inner allowance rest (hstuck.head?_ne .and rfl)
      rw [extend_of_head?_ne (hstuck.head?_ne .or rfl)] at hread
      change (disjunction allowance (tokens ++ rest) >>= _) = _
      rw [hread, guarded_bind]
      simp only [Fits, Nat.add_le_add_iff_right]
      congr 1
      have hclosing := hstuck.head?_ne .rightParen rfl
      cases hstuck
      cases rest with
      | nil => rfl
      | cons token rest =>
        cases token with
        | rightParen => simp at hclosing
        | leftParen | and | or | not | atom => rfl
  | @group tokens nesting height inner ih =>
    cases allowance with
    | zero => exact (guarded_of_false (fun h => Nat.not_succ_le_zero _ h.1) _).symm
    | succ allowance =>
      change (disjunction allowance (tokens ++ rest) >>= _) = _
      have hinner : disjunction allowance (tokens ++ rest) = _ := ih allowance
      rw [hinner, guarded_bind]
      simp only [Nat.add_le_add_iff_right]
      rfl
  | primary inner ih => exact ih allowance
  | @not tokens nesting height inner ih =>
    cases allowance with
    | zero => exact (guarded_of_false (fun h => Nat.not_succ_le_zero _ h.1) _).symm
    | succ allowance =>
      change (operand allowance (tokens ++ rest) >>= _) = _
      have hinner : operand allowance (tokens ++ rest) = _ := ih allowance
      rw [hinner, guarded_bind]
      simp only [Nat.add_le_add_iff_right]
      rfl
  | @operand tokens nesting height inner ih =>
    change (operand allowance (tokens ++ rest) >>= _) = _
    have hinner : operand allowance (tokens ++ rest) = _ := ih allowance
    rw [hinner, guarded_bind]
    rfl
  | @and tokens tokens' left nesting nesting' height first next ih =>
    rw [List.append_assoc, List.cons_append]
    have hnext : operand allowance (tokens' ++ rest) = _ := ih allowance
    refine (reads_of_derives first allowance _).trans ?_
    rw [extend_of_operator_error hnext]
    apply guarded_guarded
    simp only [Fits]
    omega
  | @conjunction tokens nesting height inner ih =>
    change (conjunction allowance (tokens ++ rest) >>= _) = _
    have hinner : conjunction allowance (tokens ++ rest) = _ := ih allowance
    rw [hinner, guarded_bind]
    rfl
  | @or tokens tokens' left nesting nesting' height first next ih =>
    rw [List.append_assoc, List.cons_append]
    have hnext : conjunction allowance (tokens' ++ rest) = _ := ih allowance
    refine (reads_of_derives first allowance _ (by simp)).trans ?_
    rw [extend_of_operator_error hnext]
    apply guarded_guarded
    simp only [Fits]
    omega

/-- The loop stops before a token other than the operator, and what holds of the tokens behind each
    operand holds of those behind the last. -/
theorem separated_rest (holds : List Token → Prop) {operator : Token}
    {join : Formula → Formula → Formula} {operand : Parser}
    (hoperand : ∀ {tokens parsed}, operand tokens = .ok parsed → holds parsed.rest)
    {tokens : List Token} {parsed : Parsed}
    (hparsed : separated operator join operand tokens = .ok parsed) :
    holds parsed.rest ∧ parsed.rest.head? ≠ some operator := by
  obtain ⟨first, hfirst, hextend⟩ := ReadError.bind_eq_ok_iff.mp hparsed
  have hholds := hoperand hfirst
  clear hparsed hfirst
  fun_induction extend operator join operand first with
  | case1 left hrest =>
    cases hextend
    exact ⟨hholds, by simp [hrest]⟩
  | case2 left rest error herror hrest => cases hextend
  | case3 left rest right hright hbound hrest ih =>
    have hbehind : holds right.rest := hoperand hright
    exact ih hextend hbehind
  | case4 left rest right hright hbound hrest => cases hextend
  | case5 left token rest hrest hother =>
    cases hextend
    exact ⟨hholds, by simpa [hrest] using hother⟩

theorem disjunction_rest {allowance : Nat} {tokens : List Token} {parsed : Parsed}
    (hparsed : disjunction allowance tokens = .ok parsed) :
    parsed.rest.head? ≠ some .and ∧ parsed.rest.head? ≠ some .or := by
  have hconjunction : ∀ {tokens parsed}, conjunction allowance tokens = .ok parsed →
      parsed.rest.head? ≠ some .and := fun hconjunction =>
    (separated_rest (fun _ => True) (fun _ => trivial) hconjunction).2
  have hdisjunction : separated .or Formula.or (conjunction allowance) tokens = .ok parsed :=
    hparsed
  exact separated_rest (fun rest => rest.head? ≠ some .and) hconjunction hdisjunction

/-- Every operator of a formula is one of its tokens. -/
theorem height_le_of_derives {level : Level} {tokens : List Token} {formula : Formula}
    {nesting : Nat} (h : Derives level tokens formula nesting) :
    formula.height ≤ tokens.countP Token.deepens := by
  induction h with
  | atom name => exact Nat.zero_le _
  | group inner ih =>
    rw [List.countP_cons, List.countP_append]
    omega
  | primary inner ih | operand inner ih | conjunction inner ih => exact ih
  | not inner ih =>
    rw [List.countP_cons_of_pos rfl]
    exact Nat.succ_le_succ ih
  | and first next ihl ihr | or first next ihl ihr =>
    rw [List.countP_append, List.countP_cons_of_pos rfl]
    simp only [height]
    omega

/-- Why a parser refuses tokens: too many of them deepen what they stand in, or they break off,
    within the bounds, where something else is due. -/
def IsFailure (allowance : Nat) (level : Level) (tokens : List Token) (error : ReadError) : Prop :=
  (error = .tooDeep depthLimit ∧ min allowance depthLimit < tokens.countP Token.deepens) ∨
    ∃ due front rest nesting height, tokens = front ++ rest ∧
      Begins due level front nesting height ∧ nesting ≤ allowance ∧ height ≤ depthLimit ∧
      Stuck due rest error

namespace IsFailure

variable {allowance : Nat} {tokens : List Token} {error : ReadError}

/-- What is wrong with an operand is wrong with what it is the first operand of. -/
theorem loosen {inner outer : Level} (h : IsFailure allowance inner tokens error)
    (hbegins : ∀ {due tokens nesting height}, Begins due inner tokens nesting height →
      Begins due outer tokens nesting height) : IsFailure allowance outer tokens error := by
  refine h.imp_right ?_
  rintro ⟨due, front, rest, nesting, height, htokens, hfront, hfits⟩
  exact ⟨due, front, rest, nesting, height, htokens, hbegins hfront, hfits⟩

/-- What is wrong behind a negation or an opening parenthesis is wrong with the whole, and one more
    of the allowance is used. -/
theorem deepen {token : Token} {inner outer : Level} (h : IsFailure allowance inner tokens error)
    (hdeepens : token.deepens = true)
    (hbegins : ∀ {due tokens nesting height}, Begins due inner tokens nesting height →
      Begins due outer (token :: tokens) (nesting + 1) height) :
    IsFailure (allowance + 1) outer (token :: tokens) error := by
  refine h.imp ?_ ?_
  · rintro ⟨rfl, hmany⟩
    refine ⟨rfl, ?_⟩
    rw [List.countP_cons_of_pos hdeepens]
    omega
  · rintro ⟨due, front, rest, nesting, height, htokens, hfront, hnesting, hfits⟩
    refine ⟨due, token :: front, rest, nesting + 1, height, ?_, hbegins hfront,
      Nat.succ_le_succ hnesting, hfits⟩
    rw [htokens, List.cons_append]

end IsFailure

section Separated

variable {operator : Token} {join : Formula → Formula → Formula} {operand : Parser}
  {inner outer : Level} {allowance : Nat}
  (hjoin : ∀ {tokens tokens' left right nesting nesting'}, Derives outer tokens left nesting →
    Derives inner tokens' right nesting' →
    Derives outer (tokens ++ operator :: tokens') (join left right) (max nesting nesting'))
  (hheight : ∀ left right, (join left right).height = max left.height right.height + 1)
  (hoperand : ∀ {tokens parsed}, operand tokens = .ok parsed →
    IsReading allowance inner tokens parsed)
  (hbegins : ∀ {due tokens tokens' left nesting nesting' height},
    Derives outer tokens left nesting → Begins due inner tokens' nesting' height →
    Begins due outer (tokens ++ operator :: tokens') (max nesting nesting')
      (max left.height height))
  (hfailure : ∀ {tokens error}, operand tokens = .error error →
    IsFailure allowance inner tokens error)

include hjoin hheight hoperand hbegins hfailure

theorem extend_isFailure {tokens : List Token} {left : Parsed} {error : ReadError}
    (hleft : IsReading allowance outer tokens left)
    (hextend : extend operator join operand left = .error error) :
    IsFailure allowance outer tokens error := by
  fun_induction extend operator join operand left with
  | case1 left hrest => cases hextend
  | case2 left rest error' herror hrest =>
    cases hextend
    obtain ⟨consumed, nesting, htokens, hderives, hnesting, hleftHeight, hbound⟩ := hleft
    rw [hrest] at htokens
    refine (hfailure herror).imp ?_ ?_
    · rintro ⟨rfl, hmany⟩
      refine ⟨rfl, ?_⟩
      rw [htokens, List.countP_append, List.countP_cons]
      omega
    · rintro ⟨due, front, after, nesting', height, hafter, hfront, hnesting', hheight', hstuck⟩
      refine ⟨due, consumed ++ operator :: front, after, max nesting nesting', _, ?_,
        hbegins hderives hfront, by omega, by omega, hstuck⟩
      rw [htokens, hafter, List.append_assoc, List.cons_append]
  | case3 left rest right hright hbound hrest ih =>
    obtain ⟨consumed, nesting, htokens, hderives, hnesting, hjoined⟩ :=
      joined_isReading hjoin hheight hoperand hleft hrest hright
    exact ih ⟨consumed, nesting, htokens, hderives, hnesting, hjoined, hbound⟩ hextend
  | case4 left rest right hright hbound hrest =>
    cases hextend
    obtain ⟨consumed, nesting, htokens, hderives, hnesting, hjoined⟩ :=
      joined_isReading hjoin hheight hoperand hleft hrest hright
    have hmany := height_le_of_derives hderives
    refine .inl ⟨rfl, ?_⟩
    rw [htokens, List.countP_append]
    omega
  | case5 left token rest hother hrest => cases hextend

theorem separated_isFailure
    (hsingle : ∀ {tokens formula nesting}, Derives inner tokens formula nesting →
      Derives outer tokens formula nesting)
    (hfirst : ∀ {due tokens nesting height}, Begins due inner tokens nesting height →
      Begins due outer tokens nesting height) {tokens : List Token} {error : ReadError}
    (herror : separated operator join operand tokens = .error error) :
    IsFailure allowance outer tokens error := by
  rcases ReadError.bind_eq_error_iff.mp herror with hrefused | ⟨parsed, hparsed, hextend⟩
  · exact (hfailure hrefused).loosen hfirst
  · obtain ⟨consumed, nesting, htokens, hderives, hrest⟩ := hoperand hparsed
    exact extend_isFailure hjoin hheight hoperand hbegins hfailure
      ⟨consumed, nesting, htokens, hsingle hderives, hrest⟩ hextend

end Separated

theorem disjunction_isFailure {allowance : Nat}
    (hfailure : ∀ {tokens error}, operand allowance tokens = .error error →
      IsFailure allowance .operand tokens error) {tokens : List Token} {error : ReadError}
    (herror : disjunction allowance tokens = .error error) :
    IsFailure allowance .disjunction tokens error := by
  have hconjunction : ∀ {tokens error}, conjunction allowance tokens = .error error →
      IsFailure allowance .conjunction tokens error :=
    separated_isFailure .and (fun _ _ => rfl) operand_isReading .and hfailure .operand .operand
  exact separated_isFailure .or (fun _ _ => rfl) (conjunction_isReading operand_isReading) .or
    hconjunction .conjunction .conjunction herror

theorem isFailure_of_stuck (allowance : Nat) {tokens : List Token} {error : ReadError}
    (hstuck : Stuck .operand tokens error) : IsFailure allowance .operand tokens error :=
  .inr ⟨.operand, [], tokens, 0, 0, rfl, .primary (.here rfl), Nat.zero_le _, Nat.zero_le _, hstuck⟩

/-- What is read behind an opening parenthesis and not closed breaks off there. -/
theorem isFailure_of_unclosed {allowance : Nat} {tokens : List Token} {inner : Parsed}
    (hinner : disjunction allowance tokens = .ok inner)
    (hunclosed : inner.rest.head? ≠ some .rightParen) :
    IsFailure (allowance + 1) .operand (.leftParen :: tokens) .missingClosingParenthesis := by
  obtain ⟨consumed, nesting, htokens, hderives, hnesting, hheight, hbound⟩ :=
    disjunction_isReading operand_isReading hinner
  obtain ⟨hand, hor⟩ := disjunction_rest hinner
  have hbegins : ∀ token ∈ inner.rest.head?, token.beginsOperand = true := by
    intro token htoken
    cases token with
    | leftParen | not | atom name => rfl
    | rightParen => exact absurd htoken hunclosed
    | and => exact absurd htoken hand
    | or => exact absurd htoken hor
  refine .inr ⟨.closing, .leftParen :: consumed, inner.rest, nesting + 1, inner.formula.height, ?_,
    .primary (.unclosed rfl hderives), Nat.succ_le_succ hnesting, hheight ▸ hbound,
    .unclosed inner.rest hbegins⟩
  rw [htokens, List.cons_append]

theorem operand_isFailure {allowance : Nat} {tokens : List Token} {error : ReadError}
    (herror : operand allowance tokens = .error error) :
    IsFailure allowance .operand tokens error := by
  induction allowance generalizing tokens error with
  | zero =>
    match tokens with
    | [] =>
      cases herror
      exact isFailure_of_stuck 0 .ended
    | .atom name :: rest => cases herror
    | .not :: rest | .leftParen :: rest =>
      cases herror
      exact .inl ⟨rfl, by rw [List.countP_cons_of_pos rfl]; omega⟩
    | .rightParen :: rest | .and :: rest | .or :: rest =>
      cases herror
      exact isFailure_of_stuck 0 (.token _ rest rfl)
  | succ allowance ih =>
    match tokens with
    | [] =>
      cases herror
      exact isFailure_of_stuck _ .ended
    | .atom name :: rest => cases herror
    | .not :: rest =>
      change (operand allowance rest >>= _) = _ at herror
      rcases ReadError.bind_eq_error_iff.mp herror with hrefused | ⟨inner, hinner, herror⟩
      · exact (ih hrefused).deepen rfl .not
      · change (bounded (inner.height + 1) >>= _) = _ at herror
        obtain ⟨consumed, nesting, htokens, hderives, _, hheight, _⟩ := operand_isReading hinner
        have hmany := height_le_of_derives hderives
        unfold bounded at herror
        split at herror
        · cases herror
        · cases herror
          refine .inl ⟨rfl, ?_⟩
          rw [List.countP_cons_of_pos rfl, htokens, List.countP_append]
          omega
    | .leftParen :: rest =>
      change (disjunction allowance rest >>= _) = _ at herror
      rcases ReadError.bind_eq_error_iff.mp herror with hrefused | ⟨inner, hinner, herror⟩
      · exact (disjunction_isFailure ih hrefused).deepen rfl fun h => .primary (.group h)
      · obtain ⟨formula, height, after⟩ := inner
        match after with
        | .rightParen :: after => cases herror
        | [] | .atom _ :: _ | .not :: _ | .leftParen :: _ | .and :: _ | .or :: _ =>
          cases herror
          exact isFailure_of_unclosed hinner (by simp)
    | .rightParen :: rest | .and :: rest | .or :: rest =>
      cases herror
      exact isFailure_of_stuck _ (.token _ rest rfl)

end Parser

end Formula

end ForwardChaining
