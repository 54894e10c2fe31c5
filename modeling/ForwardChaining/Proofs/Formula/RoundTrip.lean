import ForwardChaining.Proofs.Formula.Recognition
import ForwardChaining.Proofs.Token.Concatenation

namespace ForwardChaining.Formula

/-- The names of the atoms from left to right. -/
def atoms : Formula → List String
  | .atom name => [name]
  | .not body => body.atoms
  | .and left right => left.atoms ++ right.atoms
  | .or left right => left.atoms ++ right.atoms

/-- The tokens, in parentheses if they are needed. -/
def grouped (needed : Bool) (tokens : List Token) : List Token :=
  if needed then .leftParen :: (tokens ++ [.rightParen]) else tokens

/-- The tokens that a formula is written with. -/
def spelling : Formula → List Token
  | .atom name => [.atom name]
  | .not body => .not :: grouped (body.precedence < 3) body.spelling
  | .and left right =>
    grouped (left.precedence < 2) left.spelling ++
      .and :: grouped (right.precedence < 3) right.spelling
  | .or left right =>
    grouped (left.precedence < 1) left.spelling ++
      .or :: grouped (right.precedence < 2) right.spelling

open Token (Apart Scans)

section Text

theorem scans_parenthesised {text : String} {tokens : List Token}
    (htext : Scans text.toList tokens) (needed : Bool) :
    Scans (parenthesised needed text).toList (grouped needed tokens) := by
  cases needed with
  | false => exact htext
  | true =>
    have hopen : Scans ['('] [.leftParen] := Token.scans_glyph (by decide +kernel) rfl
    have hclose : Scans [')'] [.rightParen] := Token.scans_glyph (by decide +kernel) rfl
    have hfront : Apart ['('] text.toList := .of_glyph rfl _
    have hback : Apart (['('] ++ text.toList) [')'] := .of_glyph_right rfl _
    have hscans := (hopen.append htext hfront).append hclose hback
    simpa [parenthesised, grouped] using hscans

/-- Two operands with an operator between them, a space on either side of it. -/
theorem scans_joined {left right : String} {tokens tokens' : List Token} {c : Char} {token : Token}
    (hleft : Scans left.toList tokens) (hright : Scans right.toList tokens')
    (hblank : Text.isBlank c = false) (hglyph : Token.ofGlyph? c = some token) :
    Scans (left.toList ++ [' ', c, ' '] ++ right.toList) (tokens ++ token :: tokens') := by
  have hspace : Text.isBlank ' ' = true := by decide +kernel
  have hletter : Text.isAlphanumeric ' ' = false := by decide +kernel
  have hoperator : Scans [' ', c, ' '] [token] := by
    intro position
    simp [Token.scan, hspace, hblank, hglyph, Except.map]
  have hfront : Apart left.toList [' ', c, ' '] := .inr (by simpa using hletter)
  have hback : Apart (left.toList ++ [' ', c, ' ']) right.toList := .inl (by simpa using hletter)
  have hscans := (hleft.append hoperator hfront).append hright hback
  simpa using hscans

/-- A formula is written with its own tokens, if its atoms have names that can be read. -/
theorem scans_render {formula : Formula}
    (hnames : ∀ name ∈ formula.atoms, Text.IsAtomName name) :
    Scans formula.render.toList formula.spelling := by
  induction formula with
  | atom name => exact Token.scans_atomName (hnames name (List.mem_singleton.mpr rfl))
  | not body ih =>
    have hbody := scans_parenthesised (ih hnames) (body.precedence < 3)
    have hnot : Scans ['¬'] [.not] := Token.scans_glyph (by decide +kernel) rfl
    have hscans := hnot.append hbody (.of_glyph rfl _)
    simpa [render, spelling] using hscans
  | and left right ihl ihr =>
    have hleft := scans_parenthesised
      (ihl fun name hmem => hnames name (List.mem_append_left _ hmem)) (left.precedence < 2)
    have hright := scans_parenthesised
      (ihr fun name hmem => hnames name (List.mem_append_right _ hmem)) (right.precedence < 3)
    have hscans := scans_joined hleft hright (c := '∧') (by decide +kernel) rfl
    simpa [render, spelling] using hscans
  | or left right ihl ihr =>
    have hleft := scans_parenthesised
      (ihl fun name hmem => hnames name (List.mem_append_left _ hmem)) (left.precedence < 1)
    have hright := scans_parenthesised
      (ihr fun name hmem => hnames name (List.mem_append_right _ hmem)) (right.precedence < 2)
    have hscans := scans_joined hleft hright (c := '∨') (by decide +kernel) rfl
    simpa [render, spelling] using hscans

end Text

section Grammar

/-- How tightly a formula must bind to stand at a level without parentheses. -/
def Level.minimum : Level → Nat
  | .disjunction => 1
  | .conjunction => 2
  | .operand => 3
  | .primary => 4

/-- The tightest level at which a formula stands without parentheses. -/
def level : Formula → Level
  | .or _ _ => .disjunction
  | .and _ _ => .conjunction
  | .not _ => .operand
  | .atom _ => .primary

theorem minimum_level (formula : Formula) : formula.level.minimum = formula.precedence := by
  cases formula <;> rfl

theorem Level.minimum_disjunction_le (level : Level) :
    Level.disjunction.minimum ≤ level.minimum := by
  cases level <;> decide

/-- What stands at a level stands at every looser one. -/
theorem Derives.loosen {level looser : Level} {tokens : List Token} {formula : Formula}
    {nesting : Nat} (h : Derives level tokens formula nesting)
    (hlooser : looser.minimum ≤ level.minimum) : Derives looser tokens formula nesting := by
  have hoperand : Derives .primary tokens formula nesting →
      Derives .operand tokens formula nesting := .primary
  have hconjunction : Derives .operand tokens formula nesting →
      Derives .conjunction tokens formula nesting := .operand
  have hdisjunction : Derives .conjunction tokens formula nesting →
      Derives .disjunction tokens formula nesting := .conjunction
  cases level <;> cases looser <;> simp_all [Level.minimum]

/-- A formula that has been spelled stands at any level of operands once it is in parentheses where
    it needs them. The parentheses are charged to its own operator: only a formula that binds less
    tightly than `¬` ever needs them, and such a formula has a nesting below its height. -/
theorem derives_grouped (outer : Level) {formula : Formula} {nesting : Nat}
    (h : Derives formula.level formula.spelling formula nesting)
    (hnesting : nesting ≤ formula.height)
    (hspare : formula.precedence < 3 → nesting < formula.height) (houter : outer.minimum ≤ 3) :
    ∃ nesting' ≤ formula.height,
      Derives outer (grouped (formula.precedence < outer.minimum) formula.spelling) formula
        nesting' := by
  by_cases hneeded : formula.precedence < outer.minimum
  · have hgroup := Derives.group (h.loosen formula.level.minimum_disjunction_le)
    refine ⟨nesting + 1, hspare (by omega), ?_⟩
    rw [grouped, if_pos (decide_eq_true hneeded)]
    exact hgroup.loosen (Nat.le_trans houter (by decide))
  · refine ⟨nesting, hnesting, ?_⟩
    rw [grouped, if_neg (by simpa using hneeded)]
    exact h.loosen (by rw [minimum_level]; omega)

/-- The tokens of a formula spell it in the grammar, and they nest no deeper than it is high. -/
theorem derives_spelling (formula : Formula) :
    ∃ nesting, Derives formula.level formula.spelling formula nesting ∧
      nesting ≤ formula.height ∧ (formula.precedence < 3 → nesting < formula.height) := by
  induction formula with
  | atom name => exact ⟨0, .atom name, Nat.le_refl _, by simp [precedence]⟩
  | not body ih =>
    obtain ⟨nesting, hbody, hnesting, hspare⟩ := ih
    obtain ⟨nesting', hnesting', hbody'⟩ :=
      derives_grouped .operand hbody hnesting hspare (by decide)
    exact ⟨nesting' + 1, .not hbody', Nat.succ_le_succ hnesting', by simp [precedence]⟩
  | and left right ihl ihr =>
    obtain ⟨nesting, hleft, hnesting, hspare⟩ := ihl
    obtain ⟨nesting', hright, hnesting', hspare'⟩ := ihr
    obtain ⟨first, hfirst, hleft⟩ :=
      derives_grouped .conjunction hleft hnesting hspare (by decide)
    obtain ⟨second, hsecond, hright⟩ :=
      derives_grouped .operand hright hnesting' hspare' (by decide)
    refine ⟨max first second, .and hleft hright, ?_, fun _ => ?_⟩
    all_goals simp only [height]; omega
  | or left right ihl ihr =>
    obtain ⟨nesting, hleft, hnesting, hspare⟩ := ihl
    obtain ⟨nesting', hright, hnesting', hspare'⟩ := ihr
    obtain ⟨first, hfirst, hleft⟩ :=
      derives_grouped .disjunction hleft hnesting hspare (by decide)
    obtain ⟨second, hsecond, hright⟩ :=
      derives_grouped .conjunction hright hnesting' hspare' (by decide)
    refine ⟨max first second, .or hleft hright, ?_, fun _ => ?_⟩
    all_goals simp only [height]; omega

theorem atom_mem_of_derives {level : Level} {tokens : List Token} {formula : Formula}
    {nesting : Nat} (h : Derives level tokens formula nesting) {name : String}
    (hmem : name ∈ formula.atoms) : .atom name ∈ tokens := by
  induction h with
  | atom other => simpa [atoms] using hmem
  | group inner ih => simp [ih hmem]
  | primary inner ih => exact ih hmem
  | not inner ih => exact List.mem_cons_of_mem _ (ih hmem)
  | operand inner ih => exact ih hmem
  | and first next ihl ihr =>
    rcases List.mem_append.mp hmem with hleft | hright
    · exact List.mem_append_left _ (ihl hleft)
    · exact List.mem_append_right _ (List.mem_cons_of_mem _ (ihr hright))
  | conjunction inner ih => exact ih hmem
  | or first next ihl ihr =>
    rcases List.mem_append.mp hmem with hleft | hright
    · exact List.mem_append_left _ (ihl hleft)
    · exact List.mem_append_right _ (List.mem_cons_of_mem _ (ihr hright))

end Grammar

/-- Only its height decides whether the tokens of a formula are read back. -/
theorem ofTokens_spelling (formula : Formula) :
    ofTokens formula.spelling = guarded (formula.height ≤ depthLimit) (.ok formula) := by
  obtain ⟨nesting, hderives, hnesting, _⟩ := derives_spelling formula
  have hwhole : Derives .disjunction formula.spelling formula nesting :=
    hderives.loosen formula.level.minimum_disjunction_le
  have hfits : Fits depthLimit formula nesting ↔ formula.height ≤ depthLimit := by
    unfold Fits
    omega
  rw [ofTokens_of_derives hwhole]
  simp only [guarded, hfits]

theorem parse_render_eq {formula : Formula}
    (hnames : ∀ name ∈ formula.atoms, Text.IsAtomName name) :
    parse formula.render = guarded (formula.height ≤ depthLimit) (.ok formula) := by
  have htokens : Token.tokenize formula.render = .ok formula.spelling := scans_render hnames 0
  rw [parse, htokens]
  exact ofTokens_spelling formula

theorem isAtomName_of_parse {text : String} {formula : Formula} (hparse : parse text = .ok formula)
    {name : String} (hmem : name ∈ formula.atoms) : Text.IsAtomName name := by
  obtain ⟨tokens, htokens, hparse⟩ := ReadError.bind_eq_ok_iff.mp hparse
  obtain ⟨nesting, hderives, _⟩ := derives_of_ofTokens hparse
  exact Token.isAtomName_of_scan htokens (atom_mem_of_derives hderives hmem)

theorem height_le_of_parse {text : String} {formula : Formula}
    (hparse : parse text = .ok formula) : formula.height ≤ depthLimit := by
  obtain ⟨tokens, _, hparse⟩ := ReadError.bind_eq_ok_iff.mp hparse
  obtain ⟨nesting, _, hfits⟩ := derives_of_ofTokens hparse
  exact hfits.2

/-- A formula whose atoms have names that can be read is read back as it was written exactly if at
    most 256 operators stand on a path, and is otherwise found too deep: the parentheses it is
    written with never count against it. Whatever a text is read as has such atoms and such a
    height, so that it is read back. -/
theorem parse_render (formula : Formula) :
    ((∀ name ∈ formula.atoms, Text.IsAtomName name) →
      (formula.height ≤ 256 → parse formula.render = .ok formula) ∧
        (256 < formula.height → parse formula.render = .error (.tooDeep 256))) ∧
      ∀ text, parse text = .ok formula →
        (∀ name ∈ formula.atoms, Text.IsAtomName name) ∧ formula.height ≤ 256 ∧
          parse formula.render = .ok formula := by
  constructor
  · intro hnames
    rw [parse_render_eq hnames]
    constructor
    · intro hheight
      exact guarded_of_true hheight _
    · intro hheight
      exact guarded_of_false (Nat.not_le.mpr hheight) _
  · intro text hparse
    have hnames : ∀ name ∈ formula.atoms, Text.IsAtomName name := fun name =>
      isAtomName_of_parse hparse
    have hheight := height_le_of_parse hparse
    refine ⟨hnames, hheight, ?_⟩
    rw [parse_render_eq hnames, guarded_of_true hheight]

/-- So many negations of a conjunction, each within the last, which take as many parentheses. -/
def negatedConjunctions : Nat → Formula
  | 0 => .atom "B2"
  | count + 1 => .not (.and (.atom "é") (negatedConjunctions count))

/-- With 128 negations and 128 parentheses open at its last atom, a formula of height 256 is read
    back; one operator more, outside all of them, is too many. -/
theorem parse_render_negatedConjunctions :
    let formula := negatedConjunctions 128
    formula.height = 256 ∧ parse formula.render = .ok formula ∧
      parse (Formula.or (.atom "A") formula).render = .error (.tooDeep 256) := by
  intro formula
  have hheight : formula.height = 256 := by decide +kernel
  have hnames : ∀ name ∈ formula.atoms, Text.IsAtomName name := by decide +kernel
  have hnames' : ∀ name ∈ (Formula.or (.atom "A") formula).atoms, Text.IsAtomName name := by
    decide +kernel
  have hheight' : 256 < (Formula.or (.atom "A") formula).height := by decide +kernel
  exact ⟨hheight, ((parse_render formula).1 hnames).1 (Nat.le_of_eq hheight),
    ((parse_render _).1 hnames').2 hheight'⟩

end ForwardChaining.Formula
