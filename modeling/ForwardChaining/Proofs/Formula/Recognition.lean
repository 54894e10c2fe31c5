import ForwardChaining.Proofs.Formula.Grammar

namespace ForwardChaining.Formula

/-- The result if the bounds are kept, and otherwise the error that they are not. -/
def guarded {α : Type} (kept : Prop) [Decidable kept] (result : Except ReadError α) :
    Except ReadError α :=
  if kept then result else .error (.tooDeep depthLimit)

theorem guarded_of_true {α : Type} {kept : Prop} [Decidable kept] (h : kept)
    (result : Except ReadError α) : guarded kept result = result :=
  if_pos h

theorem guarded_of_false {α : Type} {kept : Prop} [Decidable kept] (h : ¬ kept)
    (result : Except ReadError α) : guarded kept result = .error (.tooDeep depthLimit) :=
  if_neg h

theorem guarded_guarded {α : Type} {first second both : Prop} [Decidable first] [Decidable second]
    [Decidable both] (hboth : both ↔ first ∧ second) (result : Except ReadError α) :
    guarded first (guarded second result) = guarded both result := by
  unfold guarded
  by_cases hfirst : first <;> by_cases hsecond : second <;> simp [hboth, hfirst, hsecond]

theorem guarded_bind {α β : Type} {kept : Prop} [Decidable kept] (result : Except ReadError α)
    (next : α → Except ReadError β) :
    (guarded kept result >>= next) = guarded kept (result >>= next) := by
  unfold guarded
  split <;> rfl

/-- A formula that the parser has room for: neither more nesting than the allowance nor more height
    than the limit. -/
abbrev Fits (allowance : Nat) (formula : Formula) (nesting : Nat) : Prop :=
  nesting ≤ allowance ∧ formula.height ≤ depthLimit

namespace Parser

section Extend

variable {operator : Token} {join : Formula → Formula → Formula} {operand : Parser}

theorem extend_of_head?_ne {formula : Formula} {height : Nat} {rest : List Token}
    (hrest : rest.head? ≠ some operator) :
    extend operator join operand ⟨formula, height, rest⟩ = .ok ⟨formula, height, rest⟩ := by
  unfold extend
  cases rest with
  | nil => rfl
  | cons token rest =>
    have htoken : token ≠ operator := by simpa using hrest
    simp [htoken]

/-- With a further operator and a guarded operand, the loop goes on under both guards. -/
theorem extend_of_operator {kept : Prop} [Decidable kept] {left right : Formula}
    {height height' : Nat} {tokens rest : List Token}
    (hoperand : operand tokens = guarded kept (.ok ⟨right, height', rest⟩)) :
    extend operator join operand ⟨left, height, operator :: tokens⟩ =
      guarded (kept ∧ max height height' + 1 ≤ depthLimit)
        (extend operator join operand ⟨join left right, max height height' + 1, rest⟩) := by
  rw [extend]
  simp only [↓reduceIte, hoperand]
  by_cases hkept : kept
  · rw [guarded_of_true hkept]
    by_cases hheight : max height height' + 1 ≤ depthLimit
    · simp [guarded, hkept, hheight]
    · simp [guarded, hheight]
  · rw [guarded_of_false hkept, guarded_of_false fun h => hkept h.1]

end Extend

/-- What the parser of a level makes of tokens that spell a formula there, whatever follows them.
    The parsers of operators go on with their loop, and a disjunction must not be followed by `∧`,
    which would belong to its last conjunction. -/
def Reads (allowance : Nat) : Level → List Token → Formula → Nat → Prop
  | .disjunction, tokens, formula, nesting => ∀ rest, rest.head? ≠ some .and →
    disjunction allowance (tokens ++ rest) = guarded (Fits allowance formula nesting)
      (extend .or Formula.or (conjunction allowance) ⟨formula, formula.height, rest⟩)
  | .conjunction, tokens, formula, nesting => ∀ rest,
    conjunction allowance (tokens ++ rest) = guarded (Fits allowance formula nesting)
      (extend .and Formula.and (operand allowance) ⟨formula, formula.height, rest⟩)
  | .operand, tokens, formula, nesting | .primary, tokens, formula, nesting => ∀ rest,
    operand allowance (tokens ++ rest) = guarded (Fits allowance formula nesting)
      (.ok ⟨formula, formula.height, rest⟩)

/-- What spells a formula is read as that formula, or found too deep, and nothing else. -/
theorem reads_of_derives {level : Level} {tokens : List Token} {formula : Formula} {nesting : Nat}
    (h : Derives level tokens formula nesting) (allowance : Nat) :
    Reads allowance level tokens formula nesting := by
  induction h generalizing allowance with
  | atom name =>
    intro rest
    rw [guarded_of_true ⟨Nat.zero_le _, Nat.zero_le _⟩]
    cases allowance <;> rfl
  | @group tokens formula nesting inner ih =>
    intro rest
    cases allowance with
    | zero => exact (guarded_of_false (fun h => Nat.not_succ_le_zero _ h.1) _).symm
    | succ allowance =>
      have hinner := ih allowance (.rightParen :: rest) (by simp)
      rw [extend_of_head?_ne (by simp)] at hinner
      change (disjunction allowance ((tokens ++ [.rightParen]) ++ rest) >>= _) = _
      rw [List.append_assoc, List.singleton_append, hinner, guarded_bind]
      simp only [Fits, Nat.add_le_add_iff_right]
      rfl
  | primary inner ih => exact ih allowance
  | @not tokens formula nesting inner ih =>
    intro rest
    cases allowance with
    | zero => exact (guarded_of_false (fun h => Nat.not_succ_le_zero _ h.1) _).symm
    | succ allowance =>
      change (operand allowance (tokens ++ rest) >>= _) = _
      rw [ih allowance rest, guarded_bind]
      change guarded _ (bounded (formula.height + 1) >>= _) = _
      rw [show bounded (formula.height + 1) =
        guarded (formula.height + 1 ≤ depthLimit) (.ok (formula.height + 1)) from rfl, guarded_bind]
      apply guarded_guarded
      simp only [Fits, height]
      omega
  | @operand tokens formula nesting inner ih =>
    intro rest
    change (operand allowance (tokens ++ rest) >>= _) = _
    rw [ih allowance rest, guarded_bind]
    rfl
  | @and tokens tokens' left right nesting nesting' first next ihl ihr =>
    intro rest
    rw [List.append_assoc, List.cons_append, ihl allowance _,
      extend_of_operator (ihr allowance rest)]
    apply guarded_guarded
    simp only [Fits, height]
    omega
  | @conjunction tokens formula nesting inner ih =>
    intro rest hrest
    change (conjunction allowance (tokens ++ rest) >>= _) = _
    rw [ih allowance rest, extend_of_head?_ne hrest, guarded_bind]
    rfl
  | @or tokens tokens' left right nesting nesting' first next ihl ihr =>
    intro rest hrest
    have hright := ihr allowance rest
    rw [extend_of_head?_ne hrest] at hright
    rw [List.append_assoc, List.cons_append, ihl allowance _ (by simp), extend_of_operator hright]
    apply guarded_guarded
    simp only [Fits, height]
    omega

/-- What a parser has read: a front part of the tokens that spells the formula at the level within
    the bounds, with the height of that formula. -/
def IsReading (allowance : Nat) (level : Level) (tokens : List Token) (parsed : Parsed) : Prop :=
  ∃ consumed nesting, tokens = consumed ++ parsed.rest ∧
    Derives level consumed parsed.formula nesting ∧ nesting ≤ allowance ∧
    parsed.height = parsed.formula.height ∧ parsed.height ≤ depthLimit

section Separated

variable {operator : Token} {join : Formula → Formula → Formula} {operand : Parser}
  {inner outer : Level} {allowance : Nat}
  (hjoin : ∀ {tokens tokens' left right nesting nesting'}, Derives outer tokens left nesting →
    Derives inner tokens' right nesting' →
    Derives outer (tokens ++ operator :: tokens') (join left right) (max nesting nesting'))
  (hheight : ∀ left right, (join left right).height = max left.height right.height + 1)
  (hoperand : ∀ {tokens parsed}, operand tokens = .ok parsed →
    IsReading allowance inner tokens parsed)

include hjoin hheight hoperand

/-- A further operand is joined to what was read before it, whether or not the height allows it. -/
theorem joined_isReading {tokens rest : List Token} {left right : Parsed}
    (hleft : IsReading allowance outer tokens left) (hrest : left.rest = operator :: rest)
    (hright : operand rest = .ok right) :
    ∃ consumed nesting, tokens = consumed ++ right.rest ∧
      Derives outer consumed (join left.formula right.formula) nesting ∧ nesting ≤ allowance ∧
      max left.height right.height + 1 = (join left.formula right.formula).height := by
  obtain ⟨consumed, nesting, htokens, hderives, hnesting, hleftHeight, _⟩ := hleft
  obtain ⟨consumed', nesting', hrest', hderives', hnesting', hrightHeight, _⟩ := hoperand hright
  refine ⟨consumed ++ operator :: consumed', max nesting nesting', ?_,
    hjoin hderives hderives', ?_, ?_⟩
  · rw [htokens, hrest, hrest', List.append_assoc, List.cons_append]
  · omega
  · rw [hheight, hleftHeight, hrightHeight]

theorem extend_isReading {tokens : List Token} {left result : Parsed}
    (hleft : IsReading allowance outer tokens left)
    (hextend : extend operator join operand left = .ok result) :
    IsReading allowance outer tokens result := by
  fun_induction extend operator join operand left with
  | case1 left hrest =>
    cases hextend
    exact hleft
  | case2 left rest error herror hrest => cases hextend
  | case3 left rest right hright hbound hrest ih =>
    obtain ⟨consumed, nesting, htokens, hderives, hnesting, hjoined⟩ :=
      joined_isReading hjoin hheight hoperand hleft hrest hright
    exact ih ⟨consumed, nesting, htokens, hderives, hnesting, hjoined, hbound⟩ hextend
  | case4 left rest right hright hbound hrest => cases hextend
  | case5 left token rest hother hrest =>
    cases hextend
    exact hleft

/-- Operands with the operator between them spell what is read from them. -/
theorem separated_isReading
    (hsingle : ∀ {tokens formula nesting}, Derives inner tokens formula nesting →
      Derives outer tokens formula nesting) {tokens : List Token} {parsed : Parsed}
    (hparsed : separated operator join operand tokens = .ok parsed) :
    IsReading allowance outer tokens parsed := by
  obtain ⟨first, hfirst, hparsed⟩ := ReadError.bind_eq_ok_iff.mp hparsed
  obtain ⟨consumed, nesting, htokens, hderives, hrest⟩ := hoperand hfirst
  exact extend_isReading hjoin hheight hoperand
    ⟨consumed, nesting, htokens, hsingle hderives, hrest⟩ hparsed

end Separated

theorem conjunction_isReading {allowance : Nat}
    (hoperand : ∀ {tokens parsed}, operand allowance tokens = .ok parsed →
      IsReading allowance .operand tokens parsed) {tokens : List Token} {parsed : Parsed}
    (hparsed : conjunction allowance tokens = .ok parsed) :
    IsReading allowance .conjunction tokens parsed :=
  separated_isReading .and (fun _ _ => rfl) hoperand .operand hparsed

theorem disjunction_isReading {allowance : Nat}
    (hoperand : ∀ {tokens parsed}, operand allowance tokens = .ok parsed →
      IsReading allowance .operand tokens parsed) {tokens : List Token} {parsed : Parsed}
    (hparsed : disjunction allowance tokens = .ok parsed) :
    IsReading allowance .disjunction tokens parsed :=
  separated_isReading .or (fun _ _ => rfl) (conjunction_isReading hoperand) .conjunction hparsed

theorem atom_isReading (allowance : Nat) (name : String) (rest : List Token) :
    IsReading allowance .operand (.atom name :: rest) ⟨.atom name, 0, rest⟩ :=
  ⟨[.atom name], 0, rfl, .primary (.atom name), Nat.zero_le _, rfl, Nat.zero_le _⟩

/-- A negation takes one of the allowance and adds one to the height. -/
theorem IsReading.not {allowance : Nat} {tokens : List Token} {inner : Parsed}
    (h : IsReading allowance .operand tokens inner) (hbound : inner.height + 1 ≤ depthLimit) :
    IsReading (allowance + 1) .operand (.not :: tokens)
      ⟨.not inner.formula, inner.height + 1, inner.rest⟩ := by
  obtain ⟨consumed, nesting, htokens, hderives, hnesting, hheight, _⟩ := h
  refine ⟨.not :: consumed, nesting + 1, ?_, .not hderives, Nat.succ_le_succ hnesting, ?_, hbound⟩
  · rw [htokens, List.cons_append]
  · exact congrArg (· + 1) hheight

/-- Parentheses take one of the allowance and leave the height alone. -/
theorem IsReading.group {allowance : Nat} {tokens rest : List Token} {formula : Formula}
    {height : Nat}
    (h : IsReading allowance .disjunction tokens ⟨formula, height, .rightParen :: rest⟩) :
    IsReading (allowance + 1) .operand (.leftParen :: tokens) ⟨formula, height, rest⟩ := by
  obtain ⟨consumed, nesting, htokens, hderives, hnesting, hbounds⟩ := h
  refine ⟨.leftParen :: (consumed ++ [.rightParen]), nesting + 1, ?_, .primary (.group hderives),
    Nat.succ_le_succ hnesting, hbounds⟩
  rw [htokens, List.cons_append, List.append_assoc, List.singleton_append]

/-- What is read as an operand spells one. -/
theorem operand_isReading {allowance : Nat} {tokens : List Token} {parsed : Parsed}
    (hparsed : operand allowance tokens = .ok parsed) :
    IsReading allowance .operand tokens parsed := by
  induction allowance generalizing tokens parsed with
  | zero =>
    match tokens with
    | [] => cases hparsed
    | .atom name :: rest =>
      cases hparsed
      exact atom_isReading 0 name rest
    | .not :: rest => cases hparsed
    | .leftParen :: rest => cases hparsed
    | .rightParen :: rest => cases hparsed
    | .and :: rest => cases hparsed
    | .or :: rest => cases hparsed
  | succ allowance ih =>
    match tokens with
    | [] => cases hparsed
    | .atom name :: rest =>
      cases hparsed
      exact atom_isReading (allowance + 1) name rest
    | .not :: rest =>
      obtain ⟨inner, hinner, hparsed⟩ := ReadError.bind_eq_ok_iff.mp hparsed
      obtain ⟨height, hbounded, hparsed⟩ := ReadError.bind_eq_ok_iff.mp hparsed
      obtain ⟨rfl, hbound⟩ := bounded_eq_ok_iff.mp hbounded
      cases hparsed
      exact (ih hinner).not hbound
    | .leftParen :: rest =>
      obtain ⟨⟨formula, height, after⟩, hinner, hparsed⟩ := ReadError.bind_eq_ok_iff.mp hparsed
      match after with
      | .rightParen :: after =>
        cases hparsed
        exact (disjunction_isReading ih hinner).group
      | [] => cases hparsed
      | .atom name :: after => cases hparsed
      | .not :: after => cases hparsed
      | .leftParen :: after => cases hparsed
      | .and :: after => cases hparsed
      | .or :: after => cases hparsed
    | .rightParen :: rest => cases hparsed
    | .and :: rest => cases hparsed
    | .or :: rest => cases hparsed

end Parser

/-- Tokens that spell a formula are read as it if they keep the bounds, and found too deep if they
    do not. -/
theorem ofTokens_of_derives {tokens : List Token} {formula : Formula} {nesting : Nat}
    (h : Derives .disjunction tokens formula nesting) :
    ofTokens tokens = guarded (Fits depthLimit formula nesting) (.ok formula) := by
  have hreads := Parser.reads_of_derives h depthLimit [] (by simp)
  rw [List.append_nil, Parser.extend_of_head?_ne (by simp)] at hreads
  rw [ofTokens, hreads, guarded_bind]
  rfl

/-- Tokens that are read as a formula spell it within the bounds. -/
theorem derives_of_ofTokens {tokens : List Token} {formula : Formula}
    (h : ofTokens tokens = .ok formula) :
    ∃ nesting, Derives .disjunction tokens formula nesting ∧ Fits depthLimit formula nesting := by
  obtain ⟨⟨formula, height, rest⟩, hparsed, h⟩ := ReadError.bind_eq_ok_iff.mp h
  cases rest with
  | cons token rest => cases h
  | nil =>
    cases h
    obtain ⟨consumed, nesting, htokens, hderives, hnesting, hheight, hbound⟩ :=
      Parser.disjunction_isReading Parser.operand_isReading hparsed
    rw [List.append_nil] at htokens
    subst htokens
    exact ⟨nesting, hderives, hnesting, hheight ▸ hbound⟩

/-- The parser accepts exactly its grammar: it reads as a formula just the token lists that spell
    it with at most 256 negations and parentheses open at one point and at most 256 operators on a
    path, and a token list that spells a formula beyond either bound is found too deep and nothing
    else. -/
theorem ofTokens_eq_ok_iff_derives (tokens : List Token) (formula : Formula) :
    (ofTokens tokens = .ok formula ↔
      ∃ nesting, Derives .disjunction tokens formula nesting ∧ nesting ≤ 256 ∧
        formula.height ≤ 256) ∧
      ∀ nesting, Derives .disjunction tokens formula nesting →
        256 < nesting ∨ 256 < formula.height → ofTokens tokens = .error (.tooDeep 256) := by
  constructor
  · constructor
    · exact derives_of_ofTokens
    · rintro ⟨nesting, hderives, hfits⟩
      exact (ofTokens_of_derives hderives).trans (guarded_of_true hfits _)
  · intro nesting hderives hbeyond
    have hunfit : ¬ Fits depthLimit formula nesting := by
      unfold Fits depthLimit
      omega
    rw [ofTokens_of_derives hderives, guarded_of_false hunfit]
    rfl

/-- An atom in 257 pairs of parentheses is too deep, though its height is zero. -/
theorem ofTokens_parentheses_tooDeep :
    let tokens := List.replicate 257 .leftParen ++ .atom "A" :: List.replicate 257 .rightParen
    Derives .disjunction tokens (.atom "A") 257 ∧ ofTokens tokens = .error (.tooDeep 256) := by
  intro tokens
  have hderives : Derives .disjunction tokens (.atom "A") 257 := derives_parentheses "A" 257
  exact ⟨hderives, (ofTokens_eq_ok_iff_derives tokens (.atom "A")).2 257 hderives (by decide)⟩

end ForwardChaining.Formula
