import Mathlib.Data.List.Basic
import ForwardChaining.Proofs.Formula.Cursor

namespace ForwardChaining.Formula

theorem Derives.length_pos {level : Level} {tokens : List Token} {formula : Formula} {nesting : Nat}
    (h : Derives level tokens formula nesting) : 0 < tokens.length := by
  induction h with
  | atom | group | not => exact Nat.succ_pos _
  | primary inner ih | operand inner ih | conjunction inner ih => exact ih
  | and | or =>
    rw [List.length_append, List.length_cons]
    omega

/-- No formula is read from no tokens. -/
theorem Parser.IsReading.length_lt {allowance : Nat} {level : Level} {tokens : List Token}
    {parsed : Parsed} (h : IsReading allowance level tokens parsed) :
    parsed.rest.length < tokens.length := by
  obtain ⟨consumed, nesting, htokens, hderives, _⟩ := h
  have hconsumed := hderives.length_pos
  rw [htokens, List.length_append]
  omega

namespace Parser

variable {operator : Token} {join : Formula → Formula → Formula} {operand : Parser}

theorem extend_of_cons (formula : Formula) (height : Nat) (rest : List Token) :
    extend operator join operand ⟨formula, height, operator :: rest⟩ =
      operand rest >>= fun right =>
        bounded (max height right.height + 1) >>= fun height =>
          extend operator join operand ⟨join formula right.formula, height, right.rest⟩ := by
  rw [extend]
  dsimp only
  rw [if_pos rfl]
  cases operand rest with
  | error error => rfl
  | ok right =>
    dsimp only [bind, Except.bind, bounded]
    split <;> rfl

/-- What is read within parentheses, for which the closing one has to come. -/
def closed (inner : Parsed) : Except ReadError Parsed :=
  if inner.rest.head? = some .rightParen then .ok ⟨inner.formula, inner.height, inner.rest.tail⟩
  else .error .missingClosingParenthesis

theorem operand_group (allowance : Nat) (rest : List Token) :
    Parser.operand (allowance + 1) (.leftParen :: rest) =
      disjunction allowance rest >>= closed := by
  rw [Parser.operand, disjunction]
  congr 1
  funext inner
  unfold closed
  split
  · rename_i after hafter
    rw [hafter]
    rfl
  · rename_i hunclosed
    rw [if_neg]
    · rfl
    · intro hhead
      obtain ⟨after, hafter⟩ := List.head?_eq_some_iff.mp hhead
      exact hunclosed after hafter

end Parser

namespace Procedure

/-- How many calls are within each other, that of the procedure included, before a token is read. -/
def rank : Procedure → Nat
  | .expression => 5
  | .disjunction => 4
  | .conjunction => 3
  | .operand => 2
  | .primary => 1

theorem rank_pos (procedure : Procedure) : 0 < procedure.rank := by
  cases procedure <;> decide

theorem rank_le (procedure : Procedure) : procedure.rank ≤ 5 := by
  cases procedure <;> decide

/-- The parser that a procedure comes to, with the given allowance. -/
def parser (allowance : Nat) : Procedure → Parser
  | .expression | .disjunction => Parser.disjunction allowance
  | .conjunction => Parser.conjunction allowance
  | .operand => Parser.operand allowance
  | .primary => fun tokens =>
    if tokens.head? = some .not then .error (.unexpectedToken Token.not.text)
    else Parser.operand allowance tokens

/-- The parser of what is opened and has a procedure within it: one more is open for the procedure,
    and something comes behind it. -/
def within (procedure : Procedure) (finish : Parsed → Except ReadError Parsed) :
    (allowance : Nat) → Parser
  | 0, _ => .error (.tooDeep depthLimit)
  | fewer + 1, rest => procedure.parser fewer rest >>= finish

theorem exists_isReading {procedure : Procedure} {allowance : Nat} {pending : List Token}
    {parsed : Parsed} (hparsed : procedure.parser allowance pending = .ok parsed) :
    ∃ level, Parser.IsReading allowance level pending parsed := by
  cases procedure with
  | expression | disjunction =>
    exact ⟨_, Parser.disjunction_isReading Parser.operand_isReading hparsed⟩
  | conjunction => exact ⟨_, Parser.conjunction_isReading Parser.operand_isReading hparsed⟩
  | operand => exact ⟨_, Parser.operand_isReading hparsed⟩
  | primary =>
    dsimp only [parser] at hparsed
    split at hparsed
    · cases hparsed
    · exact ⟨_, Parser.operand_isReading hparsed⟩

theorem length_rest_lt {procedure : Procedure} {allowance : Nat} {pending : List Token}
    {parsed : Parsed} (hparsed : procedure.parser allowance pending = .ok parsed) :
    parsed.rest.length < pending.length := by
  obtain ⟨level, hreading⟩ := exists_isReading hparsed
  exact hreading.length_lt

/-- What a procedure makes of the tokens that are pending, with so much open. -/
def outcome (procedure : Procedure) (depth : Nat) (pending : List Token) :
    Except Fault (Formula × Nat) :=
  ((procedure.parser (depthLimit - depth) pending).map fun parsed =>
    (parsed.formula, parsed.height)).mapError .refused

theorem outcome_of_ok {procedure : Procedure} {depth : Nat} {pending : List Token} {parsed : Parsed}
    (hparsed : procedure.parser (depthLimit - depth) pending = .ok parsed) :
    procedure.outcome depth pending = .ok (parsed.formula, parsed.height) := by
  rw [outcome, hparsed]
  rfl

theorem outcome_of_error {procedure : Procedure} {depth : Nat} {pending : List Token}
    {error : ReadError}
    (hparsed : procedure.parser (depthLimit - depth) pending = .error error) :
    procedure.outcome depth pending = .error (.refused error) := by
  rw [outcome, hparsed]
  rfl

theorem parser_of_outcome {procedure : Procedure} {depth : Nat} {pending : List Token}
    {formula : Formula} {height : Nat}
    (houtcome : procedure.outcome depth pending = .ok (formula, height)) :
    ∃ rest, procedure.parser (depthLimit - depth) pending = .ok ⟨formula, height, rest⟩ := by
  cases hparsed : procedure.parser (depthLimit - depth) pending with
  | error error =>
    rw [outcome_of_error hparsed] at houtcome
    cases houtcome
  | ok parsed =>
    rw [outcome_of_ok hparsed] at houtcome
    cases houtcome
    exact ⟨parsed.rest, rfl⟩

theorem refused_of_outcome {procedure : Procedure} {depth : Nat} {pending : List Token}
    {fault : Fault} (houtcome : procedure.outcome depth pending = .error fault) :
    ∃ error, fault = .refused error := by
  cases hparsed : procedure.parser (depthLimit - depth) pending with
  | error error =>
    rw [outcome_of_error hparsed] at houtcome
    cases houtcome
    exact ⟨error, rfl⟩
  | ok parsed =>
    rw [outcome_of_ok hparsed] at houtcome
    cases houtcome

end Procedure

namespace Walk

open Cursor (before)

section Steps

variable {tokens rest : List Token} {token : Token} {depth : Nat}

theorem nextIf_of_head? (hrest : token :: rest <:+ tokens) :
    (nextIf token).runFrom (before tokens (token :: rest) depth) =
      (.ok true, before tokens rest depth) := by
  rw [runFrom_nextIf, Cursor.peek_before hrest, Cursor.advance_before hrest]
  exact if_pos rfl

theorem nextIf_of_head?_ne (hrest : rest <:+ tokens) (hhead : rest.head? ≠ some token) :
    (nextIf token).runFrom (before tokens rest depth) =
      (.ok false, before tokens rest depth) := by
  rw [runFrom_nextIf, Cursor.peek_before hrest, if_neg hhead]

theorem next_of_cons (hrest : token :: rest <:+ tokens) :
    next.runFrom (before tokens (token :: rest) depth) =
      (.ok (some token), before tokens rest depth) := by
  rw [runFrom_next, Cursor.peek_before hrest, Cursor.advance_before hrest]
  rfl

theorem next_of_nil :
    next.runFrom (before tokens [] depth) = (.ok none, before tokens [] depth) := by
  rw [runFrom_next, Cursor.peek_before List.nil_suffix]
  rfl

theorem descend_of_lt (hdepth : depth < depthLimit) :
    descend.runFrom (before tokens rest depth) = (.ok (), before tokens rest (depth + 1)) := by
  rw [runFrom_descend]
  exact if_pos hdepth

theorem descend_of_limit :
    descend.runFrom (before tokens rest depthLimit) =
      (.error (.refused (.tooDeep depthLimit)), before tokens rest depthLimit) := by
  rw [runFrom_descend]
  exact if_neg (Nat.lt_irrefl _)

theorem ascend_of_succ :
    ascend.runFrom (before tokens rest (depth + 1)) = (.ok (), before tokens rest depth) := by
  rw [runFrom_ascend]
  exact if_neg (Nat.succ_ne_zero depth)

end Steps

/-- The walk comes to what a parser makes of the tokens. It reads the same formula, stands behind
    it and has as much open as before; or it is refused with the same error somewhere in the
    tokens. -/
inductive Agrees (tokens : List Token) (depth : Nat) :
    Except ReadError Parsed → Except Fault (Formula × Nat) × Cursor → Prop where
  | read (parsed : Parsed) (hrest : parsed.rest <:+ tokens) :
      Agrees tokens depth (.ok parsed)
        (.ok (parsed.formula, parsed.height), before tokens parsed.rest depth)
  | refused (error : ReadError) {stop : Cursor} (htokens : stop.tokens = tokens)
      (hindex : stop.index ≤ tokens.length) :
      Agrees tokens depth (.error error) (.error (.refused error), stop)

namespace Agrees

variable {tokens : List Token} {depth : Nat}

theorem eq_of_ok {parsed : Parsed} {ended : Except Fault (Formula × Nat) × Cursor}
    (h : Agrees tokens depth (.ok parsed) ended) :
    parsed.rest <:+ tokens ∧
      ended = (.ok (parsed.formula, parsed.height), before tokens parsed.rest depth) := by
  cases h with
  | read _ hrest => exact ⟨hrest, rfl⟩

theorem eq_of_error {error : ReadError} {ended : Except Fault (Formula × Nat) × Cursor}
    (h : Agrees tokens depth (.error error) ended) :
    ∃ stop : Cursor, ended = (.error (.refused error), stop) ∧ stop.tokens = tokens ∧
      stop.index ≤ tokens.length := by
  cases h with
  | refused _ htokens hindex => exact ⟨_, rfl, htokens, hindex⟩

/-- A refusal at a place in front of some of the tokens. -/
theorem refused_before (error : ReadError) (rest : List Token) (depth' : Nat) :
    Agrees tokens depth (.error error)
      (.error (.refused error), before tokens rest depth') :=
  .refused error rfl (Cursor.index_before_le _ _ _)

/-- What goes on behind a walk that agrees with a parser agrees with what goes on behind the
    parser. -/
theorem bind {inner : Nat} {result : Except ReadError Parsed} {walk : Walk (Formula × Nat)}
    {cursor : Cursor} (h : Agrees tokens inner result (walk.runFrom cursor))
    {finish : Parsed → Except ReadError Parsed}
    {continuation : Formula × Nat → Walk (Formula × Nat)}
    (hfinish : ∀ parsed : Parsed, result = .ok parsed → parsed.rest <:+ tokens →
      Agrees tokens depth (finish parsed)
        ((continuation (parsed.formula, parsed.height)).runFrom
          (before tokens parsed.rest inner))) :
    Agrees tokens depth (result >>= finish) ((walk >>= continuation).runFrom cursor) := by
  generalize hended : walk.runFrom cursor = ended at h
  cases h with
  | read parsed hrest =>
    rw [runFrom_bind_ok hended]
    exact hfinish parsed rfl hrest
  | refused error htokens hindex =>
    rw [runFrom_bind_error hended]
    exact .refused error htokens hindex

/-- The same with the height of a formula, unless it is beyond the limit. -/
theorem bounded_bind {rest : List Token} {finish : Nat → Except ReadError Parsed}
    {continuation : Nat → Walk (Formula × Nat)} (height : Nat)
    (hfinish : Agrees tokens depth (finish height)
      ((continuation height).runFrom (before tokens rest depth))) :
    Agrees tokens depth (Parser.bounded height >>= finish)
      ((accept (Parser.bounded height) >>= continuation).runFrom (before tokens rest depth)) := by
  unfold Parser.bounded
  split
  · exact hfinish
  · exact .refused_before _ _ _

end Agrees

section Follows

variable (tokens : List Token) (calls : Nat) (procedure : Procedure)

/-- With so many calls the procedure agrees with its parser, wherever in the tokens it begins and
    however much is open. The calls are enough if there are five for each token that is pending,
    and those made before the first is read. -/
def Follows : Prop :=
  ∀ ⦃depth allowance : Nat⦄, depth + allowance = depthLimit → ∀ pending, pending <:+ tokens →
    5 * pending.length + procedure.rank ≤ calls →
    Agrees tokens depth (procedure.parser allowance pending)
      ((read calls procedure).runFrom (before tokens pending depth))

/-- With so many calls the loop over what the procedure reads agrees with the parser's. -/
def Extends : Prop :=
  ∀ ⦃depth allowance : Nat⦄, depth + allowance = depthLimit → ∀ (operator : Token)
    (join : Formula → Formula → Formula) (left : Parsed), left.rest <:+ tokens →
    5 * left.rest.length < calls →
    Agrees tokens depth (Parser.extend operator join (procedure.parser allowance) left)
      ((extend calls operator join procedure (left.formula, left.height)).runFrom
        (before tokens left.rest depth))

end Follows

section Step

variable {tokens : List Token} {calls : Nat} {procedure : Procedure}

/-- One turn of the loop. What is behind the operand is shorter, so there are calls left for the
    turns to come. -/
theorem Extends.succ (hextend : Extends tokens calls procedure)
    (hread : Follows tokens calls procedure) : Extends tokens (calls + 1) procedure := by
  intro depth allowance hallowance operator join left hleft hcalls
  obtain ⟨formula, height, pending⟩ := left
  by_cases hhead : pending.head? = some operator
  · obtain ⟨rest, rfl⟩ := List.head?_eq_some_iff.mp hhead
    dsimp only [List.length_cons] at hleft hcalls ⊢
    have hrank := procedure.rank_le
    rw [Parser.extend_of_cons, extend, runFrom_bind_ok (nextIf_of_head? hleft), if_pos rfl]
    refine (hread hallowance rest ((List.suffix_cons _ _).trans hleft) (by omega)).bind ?_
    intro right hright hbehind
    have hshorter := Procedure.length_rest_lt hright
    refine .bounded_bind _ ?_
    exact hextend hallowance operator join ⟨join formula right.formula, _, right.rest⟩ hbehind
      (by dsimp only; omega)
  · rw [Parser.extend_of_head?_ne hhead, extend, runFrom_bind_ok (nextIf_of_head?_ne hleft hhead)]
    exact .read ⟨formula, height, pending⟩ hleft

namespace Follows

theorem expression (hdisjunction : Follows tokens calls .disjunction) :
    Follows tokens (calls + 1) .expression := by
  intro depth allowance hallowance pending hpending hcalls
  exact hdisjunction hallowance pending hpending (Nat.le_of_succ_le_succ hcalls)

/-- What the procedure reads, and further ones of it behind an operator. The first is not empty, so
    there are calls left for the loop. -/
theorem separated (hread : Follows tokens calls procedure)
    (hextend : Extends tokens calls procedure) {depth allowance : Nat}
    (hallowance : depth + allowance = depthLimit) (operator : Token)
    (join : Formula → Formula → Formula) {pending : List Token} (hpending : pending <:+ tokens)
    (hcalls : 5 * pending.length + procedure.rank ≤ calls) :
    Agrees tokens depth (Parser.separated operator join (procedure.parser allowance) pending)
      (Walk.runFrom (do extend calls operator join procedure (← read calls procedure))
        (before tokens pending depth)) := by
  refine (hread hallowance pending hpending hcalls).bind ?_
  intro left hleft hbehind
  have hshorter := Procedure.length_rest_lt hleft
  exact hextend hallowance operator join left hbehind (by omega)

theorem disjunction (hconjunction : Follows tokens calls .conjunction)
    (hextend : Extends tokens calls .conjunction) : Follows tokens (calls + 1) .disjunction := by
  intro depth allowance hallowance pending hpending hcalls
  exact hconjunction.separated hextend hallowance .or Formula.or hpending
    (Nat.le_of_succ_le_succ hcalls)

theorem conjunction (hoperand : Follows tokens calls .operand)
    (hextend : Extends tokens calls .operand) : Follows tokens (calls + 1) .conjunction := by
  intro depth allowance hallowance pending hpending hcalls
  exact hoperand.separated hextend hallowance .and Formula.and hpending
    (Nat.le_of_succ_le_succ hcalls)

/-- What is opened is closed again: as much is open behind what is read within as before it. Where
    the limit is reached nothing is opened. -/
theorem enclosed (hinner : Follows tokens calls procedure) {depth allowance : Nat}
    (hallowance : depth + allowance = depthLimit) {rest : List Token} (hrest : rest <:+ tokens)
    (hcalls : 5 * rest.length + procedure.rank ≤ calls)
    {finish : Parsed → Except ReadError Parsed}
    {continuation : Formula × Nat → Walk (Formula × Nat)}
    (hfinish : ∀ parsed : Parsed, parsed.rest <:+ tokens → Agrees tokens depth (finish parsed)
      ((continuation (parsed.formula, parsed.height)).runFrom (before tokens parsed.rest depth))) :
    Agrees tokens depth (procedure.within finish allowance rest)
      (Walk.runFrom (do
        descend
        let inner ← read calls procedure
        ascend
        continuation inner) (before tokens rest depth)) := by
  cases allowance with
  | zero =>
    obtain rfl : depth = depthLimit := hallowance
    rw [runFrom_bind_error descend_of_limit]
    exact .refused_before _ _ _
  | succ fewer =>
    rw [runFrom_bind_ok (descend_of_lt (by omega))]
    refine (hinner (by omega) rest hrest hcalls).bind fun parsed _ hbehind => ?_
    rw [runFrom_bind_ok ascend_of_succ]
    exact hfinish parsed hbehind

/-- A negation, which adds to the height of what it negates. Without one an operand is a primary. -/
theorem operand (hoperand : Follows tokens calls .operand)
    (hprimary : Follows tokens calls .primary) : Follows tokens (calls + 1) .operand := by
  intro depth allowance hallowance pending hpending hcalls
  by_cases hnot : pending.head? = some .not
  · obtain ⟨rest, rfl⟩ := List.head?_eq_some_iff.mp hnot
    rw [List.length_cons] at hcalls
    have hparser : Procedure.operand.parser allowance (.not :: rest) =
        Procedure.operand.within (fun inner => Parser.bounded (inner.height + 1) >>= fun height =>
          .ok ⟨.not inner.formula, height, inner.rest⟩) allowance rest := by
      cases allowance <;> rfl
    rw [read, runFrom_bind_ok (nextIf_of_head? hpending), if_pos rfl, hparser]
    refine hoperand.enclosed hallowance ((List.suffix_cons _ _).trans hpending) (by omega) ?_
    intro inner hbehind
    exact .bounded_bind _ (.read ⟨.not inner.formula, inner.height + 1, inner.rest⟩ hbehind)
  · -- No token is read before the primary, which is of a smaller rank.
    have hparser : Procedure.operand.parser allowance pending =
        Procedure.primary.parser allowance pending := (if_neg hnot).symm
    rw [read, runFrom_bind_ok (nextIf_of_head?_ne hpending hnot), hparser]
    exact hprimary hallowance pending hpending (Nat.le_of_succ_le_succ hcalls)

/-- A formula in parentheses, for which the closing one has to come. -/
theorem group (hexpression : Follows tokens calls .expression) {depth allowance : Nat}
    (hallowance : depth + allowance = depthLimit) {rest : List Token}
    (hpending : .leftParen :: rest <:+ tokens)
    (hcalls : 5 * (rest.length + 1) ≤ calls) :
    Agrees tokens depth (Parser.operand allowance (.leftParen :: rest))
      ((read (calls + 1) .primary).runFrom (before tokens (.leftParen :: rest) depth)) := by
  have hparser : Parser.operand allowance (.leftParen :: rest) =
      Procedure.expression.within Parser.closed allowance rest := by
    cases allowance with
    | zero => rfl
    | succ fewer => exact Parser.operand_group fewer rest
  rw [read, runFrom_bind_ok (next_of_cons hpending), hparser]
  refine hexpression.enclosed hallowance ((List.suffix_cons _ _).trans hpending) hcalls ?_
  intro inner hbehind
  unfold Parser.closed
  split
  · rename_i hhead
    obtain ⟨after, hafter⟩ := List.head?_eq_some_iff.mp hhead
    rw [hafter] at hbehind ⊢
    rw [runFrom_bind_ok (nextIf_of_head? hbehind)]
    exact .read ⟨inner.formula, inner.height, after⟩ ((List.suffix_cons _ _).trans hbehind)
  · rename_i hhead
    rw [runFrom_bind_ok (nextIf_of_head?_ne hbehind hhead)]
    exact .refused_before _ _ _

theorem primary (hexpression : Follows tokens calls .expression) :
    Follows tokens (calls + 1) .primary := by
  intro depth allowance hallowance pending hpending hcalls
  match pending with
  | [] =>
    rw [read, runFrom_bind_ok next_of_nil]
    cases allowance <;> exact .refused_before _ _ _
  | .atom name :: rest =>
    rw [read, runFrom_bind_ok (next_of_cons hpending)]
    have hatom : Procedure.primary.parser allowance (.atom name :: rest) =
        .ok ⟨.atom name, 0, rest⟩ := by
      cases allowance <;> rfl
    rw [hatom]
    exact .read ⟨.atom name, 0, rest⟩ ((List.suffix_cons _ _).trans hpending)
  | .leftParen :: rest =>
    exact hexpression.group hallowance hpending (Nat.le_of_succ_le_succ hcalls)
  | .not :: rest =>
    rw [read, runFrom_bind_ok (next_of_cons hpending)]
    exact .refused_before _ _ _
  | .rightParen :: rest | .and :: rest | .or :: rest =>
    rw [read, runFrom_bind_ok (next_of_cons hpending)]
    cases allowance <;> exact .refused_before _ _ _

end Follows

/-- Every procedure agrees with its parser, and so does every loop. The induction is on the calls:
    a call made before a token is read is of a procedure of a smaller rank. -/
theorem follows_extends (tokens : List Token) (calls : Nat) :
    (∀ procedure, Follows tokens calls procedure) ∧
      ∀ procedure, Extends tokens calls procedure := by
  induction calls with
  | zero =>
    constructor
    · intro procedure depth allowance _ pending _ hcalls
      have hrank := procedure.rank_pos
      omega
    · intro procedure depth allowance _ operator join left _ hcalls
      exact absurd hcalls (Nat.not_lt_zero _)
  | succ calls ih =>
    obtain ⟨hread, hextend⟩ := ih
    refine ⟨fun procedure => ?_, fun procedure => (hextend procedure).succ (hread procedure)⟩
    cases procedure with
    | expression => exact (hread .disjunction).expression
    | disjunction => exact (hread .conjunction).disjunction (hextend .conjunction)
    | conjunction => exact (hread .operand).conjunction (hextend .operand)
    | operand => exact (hread .operand).operand (hread .primary)
    | primary => exact (hread .expression).primary

end Step

/-- Within the bounds a procedure ends, and it comes to what its parser makes of the pending
    tokens. If that is a formula, it stands behind it with as much open as before. -/
theorem runFrom_read (procedure : Procedure) {cursor : Cursor}
    (hindex : cursor.index ≤ cursor.tokens.length) (hdepth : cursor.depth ≤ depthLimit) :
    ∃ final : Cursor,
      (∀ calls, 5 * (cursor.pending.length + 1) ≤ calls → (read calls procedure).runFrom cursor =
        (procedure.outcome cursor.depth cursor.pending, final)) ∧
      final.tokens = cursor.tokens ∧ final.index ≤ cursor.tokens.length ∧
      ∀ parsed, procedure.parser (depthLimit - cursor.depth) cursor.pending = .ok parsed →
        final = before cursor.tokens parsed.rest cursor.depth := by
  have hrank := procedure.rank_le
  have hread := (follows_extends cursor.tokens (5 * (cursor.pending.length + 1))).1 procedure
    (Nat.add_sub_cancel' hdepth) cursor.pending (List.drop_suffix _ _) (by omega)
  rw [Cursor.before_pending hindex] at hread
  cases hparsed : procedure.parser (depthLimit - cursor.depth) cursor.pending with
  | error error =>
    rw [hparsed] at hread
    rw [Procedure.outcome_of_error hparsed]
    obtain ⟨final, hend, htokens, hfinal⟩ := hread.eq_of_error
    refine ⟨final, fun calls hcalls => ?_, htokens, hfinal, nofun⟩
    exact (prolongs_of_le procedure hcalls cursor (by simp [hend])).trans hend
  | ok parsed =>
    rw [hparsed] at hread
    rw [Procedure.outcome_of_ok hparsed]
    obtain ⟨_, hend⟩ := hread.eq_of_ok
    refine ⟨before cursor.tokens parsed.rest cursor.depth, fun calls hcalls => ?_, rfl,
      Cursor.index_before_le _ _ _, ?_⟩
    · exact (prolongs_of_le procedure hcalls cursor (by simp [hend])).trans hend
    · rintro _ ⟨⟩
      rfl

/-- Reading all tokens comes to the same as the parser: nothing is closed that is not open, and the
    tokens that are left over are always there. -/
theorem runFrom_whole (tokens : List Token) {calls : Nat}
    (hcalls : 5 * (tokens.length + 1) ≤ calls) :
    ((whole calls).runFrom ⟨tokens, 0, 0⟩).1 = (ofTokens tokens).mapError .refused := by
  have hstart : before tokens tokens 0 = ⟨tokens, 0, 0⟩ := by simp [before]
  have hread : Agrees tokens 0 (Parser.disjunction depthLimit tokens)
      ((read calls .expression).runFrom (before tokens tokens 0)) :=
    (follows_extends tokens calls).1 .expression (Nat.zero_add depthLimit) tokens List.suffix_rfl
      hcalls
  rw [whole, ← hstart, ofTokens]
  cases hparsed : Parser.disjunction depthLimit tokens with
  | error error =>
    rw [hparsed] at hread
    obtain ⟨stop, hread, _⟩ := hread.eq_of_error
    rw [runFrom_bind_error hread]
    rfl
  | ok parsed =>
    rw [hparsed] at hread
    obtain ⟨hrest, hread⟩ := hread.eq_of_ok
    obtain ⟨formula, height, rest⟩ := parsed
    rw [runFrom_bind_ok hread, runFrom_bind_ok (runFrom_get _), Cursor.peek_before hrest]
    cases rest with
    | nil => rfl
    | cons token rest =>
      dsimp only [List.head?_cons]
      rw [runFrom_bind_ok (runFrom_remaining (Cursor.index_before_le _ _ _)),
        Cursor.pending_before hrest]
      rfl

/-- From any place in any tokens with at most 256 negations and parentheses open, each procedure
    ends, with no more calls within each other than five for each pending token and five. What it
    comes to is decided by the pending tokens and by how much is open, and is never that something
    is closed which is not open. If it is a formula, then as much is open as before, the place is
    further on in the tokens, and the height is that of the formula and at most 256. So the tokens
    that are left over can always be told, and reading all tokens in this way comes to what the
    parser makes of them. -/
theorem read_keeps_place :
    (∀ (procedure : Procedure) (cursor : Cursor), cursor.index ≤ cursor.tokens.length →
      cursor.depth ≤ 256 →
      ∃ outcome final,
        (∀ calls, 5 * (cursor.pending.length + 1) ≤ calls →
          (read calls procedure).runFrom cursor = (outcome, final)) ∧
        outcome = procedure.outcome cursor.depth cursor.pending ∧
        (∀ other : Cursor, other.index ≤ other.tokens.length → other.depth = cursor.depth →
          other.pending = cursor.pending →
          ∃ stop, ∀ calls, 5 * (cursor.pending.length + 1) ≤ calls →
            (read calls procedure).runFrom other = (outcome, stop)) ∧
        (∀ fault, outcome = .error fault → ∃ error, fault = .refused error) ∧
        (∀ formula height, outcome = .ok (formula, height) →
          final.depth = cursor.depth ∧ cursor.index < final.index ∧ height = formula.height ∧
            height ≤ 256) ∧
        final.tokens = cursor.tokens ∧ final.index ≤ cursor.tokens.length ∧
        remaining.runFrom final = (.ok (Token.spaced final.pending), final)) ∧
    ∀ tokens calls, 5 * (tokens.length + 1) ≤ calls →
      ((whole calls).runFrom ⟨tokens, 0, 0⟩).1 = (ofTokens tokens).mapError .refused := by
  refine ⟨fun procedure cursor hindex hdepth => ?_, fun tokens calls => runFrom_whole tokens⟩
  obtain ⟨final, hread, htokens, hfinal, hplace⟩ := runFrom_read procedure hindex hdepth
  refine ⟨_, final, hread, rfl, ?_, ?_, ?_, htokens, hfinal, runFrom_remaining (htokens ▸ hfinal)⟩
  · intro other hother hsame hpending
    obtain ⟨stop, hstop, _⟩ := runFrom_read procedure hother (hsame ▸ hdepth)
    rw [hsame, hpending] at hstop
    exact ⟨stop, hstop⟩
  · intro fault houtcome
    exact Procedure.refused_of_outcome houtcome
  · intro formula height houtcome
    obtain ⟨rest, hparsed⟩ := Procedure.parser_of_outcome houtcome
    obtain ⟨level, hreading⟩ := Procedure.exists_isReading hparsed
    have hshorter := hreading.length_lt
    obtain ⟨_, _, _, _, _, hheight, hbound⟩ := hreading
    rw [hplace _ hparsed]
    exact ⟨rfl, Cursor.lt_index_before hshorter, hheight, hbound⟩

/-- With 254 open there is just room for a negation and a parenthesis, and with 255 there is not.
    The closing parenthesis in front has been read. -/
theorem read_keeps_place_nearly_full :
    let tokens : List Token := [.rightParen, .atom "A", .and, .not, .leftParen, .atom "B",
      .rightParen, .or, .atom "C", .rightParen]
    (∃ final, (read 50 .conjunction).runFrom ⟨tokens, 1, 254⟩ =
        (.ok (.and (.atom "A") (.not (.atom "B")), 2), final) ∧
      final.depth = 254 ∧ 1 < final.index ∧ final.index ≤ 10) ∧
    ∃ final, (read 50 .conjunction).runFrom ⟨tokens, 1, 255⟩ =
        (.error (.refused (.tooDeep 256)), final) ∧ final.index ≤ 10 := by
  intro tokens
  have hroom : Procedure.outcome .conjunction 254 (Cursor.pending ⟨tokens, 1, 254⟩) =
      .ok (.and (.atom "A") (.not (.atom "B")), 2) := by decide +kernel
  have hfull : Procedure.outcome .conjunction 255 (Cursor.pending ⟨tokens, 1, 255⟩) =
      .error (.refused (.tooDeep 256)) := by decide +kernel
  obtain ⟨hread, _⟩ := read_keeps_place
  constructor
  · obtain ⟨outcome, final, hrun, houtcome, _, _, hkeeps, _, hindex, _⟩ :=
      hread .conjunction ⟨tokens, 1, 254⟩ (by decide) (by decide)
    rw [hroom] at houtcome
    obtain ⟨hdepth, hlater, _⟩ := hkeeps _ _ houtcome
    exact ⟨final, houtcome ▸ hrun 50 (by decide), hdepth, hlater, hindex⟩
  · obtain ⟨outcome, final, hrun, houtcome, _, _, _, _, hindex, _⟩ :=
      hread .conjunction ⟨tokens, 1, 255⟩ (by decide) (by decide)
    rw [hfull] at houtcome
    exact ⟨final, houtcome ▸ hrun 50 (by decide), hindex⟩

end Walk

end ForwardChaining.Formula
