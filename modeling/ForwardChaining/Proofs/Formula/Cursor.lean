import ForwardChaining.Proofs.Formula.Recognition

namespace ForwardChaining.Formula

/-- A place in a list of tokens, with the number of negations and parentheses open there. -/
structure Cursor where
  tokens : List Token
  index : Nat := 0
  depth : Nat := 0
deriving DecidableEq

namespace Cursor

/-- The tokens from the place on. -/
def pending (cursor : Cursor) : List Token :=
  cursor.tokens.drop cursor.index

def peek (cursor : Cursor) : Option Token :=
  cursor.tokens[cursor.index]?

def advance (cursor : Cursor) : Cursor :=
  { cursor with index := cursor.index + 1 }

end Cursor

/-- Why a walk through tokens breaks off. -/
inductive Fault where
  /-- The tokens are refused with an error. -/
  | refused (error : ReadError)
  /-- Something is closed where nothing is open. -/
  | underflow
  /-- Tokens are asked for from a place beyond their end. -/
  | outOfRange
  /-- The walk takes more calls within each other than it may. -/
  | unfinished
deriving DecidableEq

/-- Something done at a cursor, which it moves. -/
abbrev Walk (α : Type) := ExceptT Fault (StateM Cursor) α

/-- What there is to read at a place: a formula, or what stands at one of the levels of the
    grammar. -/
inductive Procedure where
  | expression
  | disjunction
  | conjunction
  | operand
  | primary
deriving DecidableEq

namespace Walk

/-- How a walk ends from a cursor, and where. -/
def runFrom {α : Type} (walk : Walk α) (cursor : Cursor) : Except Fault α × Cursor :=
  (walk.run.run cursor).run

/-- Goes on with the result, or breaks off with its error. -/
def accept {α : Type} : Except ReadError α → Walk α
  | .ok value => return value
  | .error error => throw (.refused error)

/-- Takes the next token, if there is one. -/
def next : Walk (Option Token) := do
  let token := (← get).peek
  if token.isSome then
    modify Cursor.advance
  return token

/-- Takes the next token if it is the given one. -/
def nextIf (token : Token) : Walk Bool := do
  if (← get).peek = some token then
    modify Cursor.advance
    return true
  else
    return false

/-- Opens a negation or a parenthesis. -/
def descend : Walk Unit := do
  let depth ← accept (Parser.bounded ((← get).depth + 1))
  modify fun cursor => { cursor with depth := depth }

/-- Closes a negation or a parenthesis. -/
def ascend : Walk Unit := do
  if (← get).depth = 0 then
    throw .underflow
  else
    modify fun cursor => { cursor with depth := cursor.depth - 1 }

mutual

/-- Reads what the procedure is for, with its height. At most so many calls are made within each
    other, where every turn of a loop counts as a call within the one before it. -/
def read (calls : Nat) (procedure : Procedure) : Walk (Formula × Nat) :=
  match calls, procedure with
  | 0, _ => throw .unfinished
  | calls + 1, .expression => read calls .disjunction
  | calls + 1, .disjunction => do
    extend calls .or Formula.or .conjunction (← read calls .conjunction)
  | calls + 1, .conjunction => do
    extend calls .and Formula.and .operand (← read calls .operand)
  | calls + 1, .operand => do
    if ← nextIf .not then
      descend
      let inner ← read calls .operand
      ascend
      let height ← accept (Parser.bounded (inner.2 + 1))
      return (.not inner.1, height)
    else
      read calls .primary
  | calls + 1, .primary => do
    match ← next with
    | none => throw (.refused .unexpectedEnd)
    | some (.atom name) => return (.atom name, 0)
    | some .leftParen =>
      descend
      let inner ← read calls .expression
      ascend
      if ← nextIf .rightParen then
        return inner
      else
        throw (.refused .missingClosingParenthesis)
    | some token => throw (.refused (.unexpectedToken token.text))

/-- Joins a further operand to what was read, as long as the operator comes next. -/
def extend (calls : Nat) (operator : Token) (join : Formula → Formula → Formula)
    (procedure : Procedure) (left : Formula × Nat) : Walk (Formula × Nat) :=
  match calls with
  | 0 => throw .unfinished
  | calls + 1 => do
    if ← nextIf operator then
      let right ← read calls procedure
      let height ← accept (Parser.bounded (max left.2 right.2 + 1))
      extend calls operator join procedure (join left.1 right.1, height)
    else
      return left

end

/-- The text of the tokens that have not been read. -/
def remaining : Walk String := do
  let cursor ← get
  if cursor.index ≤ cursor.tokens.length then
    return Token.spaced cursor.pending
  else
    throw .outOfRange

/-- Reads a formula and requires that nothing comes behind it. -/
def whole (calls : Nat) : Walk Formula := do
  let reading ← read calls .expression
  match (← get).peek with
  | none => return reading.1
  | some _ => throw (.refused (.trailingTokens (← remaining)))

section Moves

variable {α β : Type} {walk : Walk α} {continuation : α → Walk β} {cursor stop : Cursor}

theorem runFrom_bind (walk : Walk α) (continuation : α → Walk β) (cursor : Cursor) :
    (walk >>= continuation).runFrom cursor =
      match walk.runFrom cursor with
      | (.ok value, stop) => (continuation value).runFrom stop
      | (.error fault, stop) => (.error fault, stop) := by
  change (ExceptT.bindCont continuation (walk.runFrom cursor).1).run (walk.runFrom cursor).2 = _
  obtain ⟨result, stop⟩ := walk.runFrom cursor
  cases result <;> rfl

theorem runFrom_bind_ok {value : α} (h : walk.runFrom cursor = (.ok value, stop)) :
    (walk >>= continuation).runFrom cursor = (continuation value).runFrom stop := by
  rw [runFrom_bind, h]

theorem runFrom_bind_error {fault : Fault} (h : walk.runFrom cursor = (.error fault, stop)) :
    (walk >>= continuation).runFrom cursor = (.error fault, stop) := by
  rw [runFrom_bind, h]

theorem runFrom_get (cursor : Cursor) :
    (get : Walk Cursor).runFrom cursor = (.ok cursor, cursor) := rfl

theorem runFrom_next (cursor : Cursor) :
    next.runFrom cursor =
      (.ok cursor.peek, if cursor.peek.isSome then cursor.advance else cursor) := by
  unfold next
  rw [runFrom_bind_ok (runFrom_get cursor)]
  cases cursor.peek <;> rfl

theorem runFrom_nextIf (token : Token) (cursor : Cursor) :
    (nextIf token).runFrom cursor =
      if cursor.peek = some token then (.ok true, cursor.advance) else (.ok false, cursor) := by
  unfold nextIf
  rw [runFrom_bind_ok (runFrom_get cursor)]
  split <;> rfl

theorem runFrom_descend (cursor : Cursor) :
    descend.runFrom cursor =
      if cursor.depth < depthLimit then (.ok (), { cursor with depth := cursor.depth + 1 })
      else (.error (.refused (.tooDeep depthLimit)), cursor) := by
  unfold descend Parser.bounded
  rw [runFrom_bind_ok (runFrom_get cursor)]
  simp only [Nat.succ_le_iff]
  split <;> rfl

theorem runFrom_ascend (cursor : Cursor) :
    ascend.runFrom cursor =
      if cursor.depth = 0 then (.error .underflow, cursor)
      else (.ok (), { cursor with depth := cursor.depth - 1 }) := by
  unfold ascend
  rw [runFrom_bind_ok (runFrom_get cursor)]
  split <;> rfl

theorem runFrom_remaining {cursor : Cursor} (hindex : cursor.index ≤ cursor.tokens.length) :
    remaining.runFrom cursor = (.ok (Token.spaced cursor.pending), cursor) := by
  unfold remaining
  rw [runFrom_bind_ok (runFrom_get cursor), if_pos hindex]
  rfl

end Moves

section Prolongs

variable {α β : Type}

/-- Wherever the shorter walk gets to an end, the longer one gets to the same end. -/
def Prolongs (longer shorter : Walk α) : Prop :=
  ∀ cursor, (shorter.runFrom cursor).1 ≠ .error .unfinished →
    longer.runFrom cursor = shorter.runFrom cursor

theorem Prolongs.refl (walk : Walk α) : walk.Prolongs walk :=
  fun _ _ => rfl

theorem Prolongs.bind {longer shorter : Walk α} {longer' shorter' : α → Walk β}
    (h : longer.Prolongs shorter) (h' : ∀ value, (longer' value).Prolongs (shorter' value)) :
    (longer >>= longer').Prolongs (shorter >>= shorter') := by
  intro cursor hend
  rcases hshorter : shorter.runFrom cursor with ⟨fault | value, stop⟩
  · rw [runFrom_bind_error hshorter] at hend ⊢
    have hfault : fault ≠ .unfinished := fun hfault => hend (congrArg Except.error hfault)
    exact runFrom_bind_error ((h cursor (by simpa [hshorter] using hfault)).trans hshorter)
  · rw [runFrom_bind_ok hshorter] at hend ⊢
    rw [runFrom_bind_ok ((h cursor (by simp [hshorter])).trans hshorter)]
    exact h' value stop hend

theorem prolongs_succ (calls : Nat) :
    (∀ procedure, (read (calls + 1) procedure).Prolongs (read calls procedure)) ∧
    ∀ operator join procedure left, (extend (calls + 1) operator join procedure left).Prolongs
      (extend calls operator join procedure left) := by
  induction calls with
  | zero => exact ⟨fun _ _ hend => absurd rfl hend, fun _ _ _ _ _ hend => absurd rfl hend⟩
  | succ calls ih =>
    obtain ⟨hread, hextend⟩ := ih
    constructor
    · intro procedure
      cases procedure with
      | expression => exact hread .disjunction
      | disjunction => exact (hread .conjunction).bind (hextend _ _ _)
      | conjunction => exact (hread .operand).bind (hextend _ _ _)
      | operand =>
        refine (Prolongs.refl _).bind fun negated => ?_
        cases negated with
        | false => exact hread .primary
        | true => exact (Prolongs.refl _).bind fun _ => (hread .operand).bind fun _ => .refl _
      | primary =>
        refine (Prolongs.refl _).bind fun token => ?_
        split
        · exact .refl _
        · exact .refl _
        · exact (Prolongs.refl _).bind fun _ => (hread .expression).bind fun _ => .refl _
        · exact .refl _
    · intro operator join procedure left
      refine (Prolongs.refl _).bind fun further => ?_
      cases further with
      | false => exact .refl _
      | true =>
        exact (hread procedure).bind fun _ => (Prolongs.refl _).bind fun _ => hextend _ _ _ _

/-- A procedure that gets to an end gets to no other one with more calls. -/
theorem prolongs_of_le (procedure : Procedure) {calls more : Nat} (hcalls : calls ≤ more) :
    (read more procedure).Prolongs (read calls procedure) := by
  intro cursor hend
  induction hcalls with
  | refl => rfl
  | step _ ih => exact ((prolongs_succ _).1 procedure cursor (ih ▸ hend)).trans ih

end Prolongs

end Walk

namespace Cursor

/-- The place in front of the last of the tokens. -/
def before (tokens rest : List Token) (depth : Nat) : Cursor :=
  ⟨tokens, tokens.length - rest.length, depth⟩

section Before

variable {tokens rest : List Token} {token : Token} {depth : Nat}

theorem index_before_le (tokens rest : List Token) (depth : Nat) :
    (before tokens rest depth).index ≤ tokens.length :=
  Nat.sub_le _ _

theorem before_pending {cursor : Cursor} (hindex : cursor.index ≤ cursor.tokens.length) :
    before cursor.tokens cursor.pending cursor.depth = cursor := by
  have hplace : cursor.tokens.length - cursor.pending.length = cursor.index := by
    rw [pending, List.length_drop]
    omega
  unfold before
  rw [hplace]

theorem pending_before (hrest : rest <:+ tokens) : (before tokens rest depth).pending = rest :=
  (List.suffix_iff_eq_drop.mp hrest).symm

theorem peek_before (hrest : rest <:+ tokens) : (before tokens rest depth).peek = rest.head? := by
  rw [peek, ← List.head?_drop]
  exact congrArg List.head? (pending_before hrest)

theorem advance_before (hrest : token :: rest <:+ tokens) :
    (before tokens (token :: rest) depth).advance = before tokens rest depth := by
  have hlength := hrest.length_le
  rw [List.length_cons] at hlength
  have hplace : tokens.length - (rest.length + 1) + 1 = tokens.length - rest.length := by omega
  simp only [before, advance, List.length_cons, hplace]

theorem lt_index_before {cursor : Cursor} (hshorter : rest.length < cursor.pending.length) :
    cursor.index < (before cursor.tokens rest depth).index := by
  rw [pending, List.length_drop] at hshorter
  simp only [before]
  omega

end Before

end Cursor

end ForwardChaining.Formula
