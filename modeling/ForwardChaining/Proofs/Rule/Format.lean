import Mathlib.Data.List.TakeWhile
import ForwardChaining.Rule

namespace ForwardChaining

/-- A result that is not an error about the number of arrows. -/
def ReadError.FormatFree {α : Type} (result : Except ReadError α) : Prop :=
  ∀ error, result = .error error → error.isFormat = false

namespace ReadError.FormatFree

variable {α β : Type}

theorem ok (value : α) : FormatFree (.ok value) := nofun

theorem error {error : ReadError} (h : error.isFormat = false) :
    FormatFree (.error error : Except ReadError α) := by
  rintro _ ⟨⟩
  exact h

theorem bind {first : Except ReadError α} {next : α → Except ReadError β}
    (hfirst : FormatFree first) (hnext : ∀ value, FormatFree (next value)) :
    FormatFree (first >>= next) := by
  cases first with
  | ok value => exact hnext value
  | error error => exact .error (hfirst error rfl)

theorem map {first : Except ReadError α} (hfirst : FormatFree first) (next : α → β) :
    FormatFree (first.map next) := by
  cases first with
  | ok value => exact .ok (next value)
  | error error => exact .error (hfirst error rfl)

end ReadError.FormatFree

open ReadError (FormatFree)

theorem Token.scan_formatFree (position : Nat) (chars : List Char) :
    FormatFree (scan position chars) := by
  fun_induction scan position chars with
  | case1 => exact .ok []
  | case2 position c rest hblank ih => exact ih
  | case3 position c rest hblank token hglyph ih => exact ih.map _
  | case4 position c rest hblank hglyph halphanumeric run ih => exact ih.map _
  | case5 position c rest hblank hglyph hother => exact .error rfl

namespace Formula

namespace Parser

theorem bounded_formatFree (height : Nat) : FormatFree (bounded height) := by
  unfold bounded
  split
  · exact .ok height
  · exact .error rfl

section

variable {operand : Parser} (hoperand : ∀ tokens, FormatFree (operand tokens))

include hoperand

theorem extend_formatFree (operator : Token) (join : Formula → Formula → Formula) (left : Parsed) :
    FormatFree (extend operator join operand left) := by
  fun_induction extend operator join operand left with
  | case1 left hrest => exact .ok left
  | case2 left rest error herror hrest => exact .error (hoperand rest error herror)
  | case3 left rest right hright hbound hrest ih => exact ih
  | case4 left rest right hright hbound hrest => exact .error rfl
  | case5 left token rest hother hrest => exact .ok left

theorem separated_formatFree (operator : Token) (join : Formula → Formula → Formula)
    (tokens : List Token) : FormatFree (separated operator join operand tokens) :=
  (hoperand tokens).bind (extend_formatFree hoperand operator join)

theorem disjunctionOf_formatFree (tokens : List Token) :
    FormatFree (disjunctionOf operand tokens) :=
  separated_formatFree (separated_formatFree hoperand .and .and) .or .or tokens

end

theorem operand_formatFree (allowance : Nat) (tokens : List Token) :
    FormatFree (operand allowance tokens) := by
  induction allowance generalizing tokens with
  | zero =>
    match tokens with
    | [] => exact .error rfl
    | .atom name :: rest => exact .ok _
    | .not :: rest => exact .error rfl
    | .leftParen :: rest => exact .error rfl
    | .rightParen :: rest => exact .error rfl
    | .and :: rest => exact .error rfl
    | .or :: rest => exact .error rfl
  | succ allowance ih =>
    match tokens with
    | [] => exact .error rfl
    | .atom name :: rest => exact .ok _
    | .not :: rest =>
      refine (ih rest).bind fun inner => (bounded_formatFree _).bind fun height => ?_
      exact .ok _
    | .leftParen :: rest =>
      refine (disjunctionOf_formatFree ih rest).bind fun inner => ?_
      split
      · exact .ok _
      · exact .error rfl
    | .rightParen :: rest => exact .error rfl
    | .and :: rest => exact .error rfl
    | .or :: rest => exact .error rfl

end Parser

theorem parse_formatFree (text : String) : FormatFree (parse text) := by
  refine (Token.scan_formatFree 0 text.toList).bind fun tokens => ?_
  refine (Parser.disjunctionOf_formatFree (Parser.operand_formatFree depthLimit) tokens).bind
    fun parsed => ?_
  split
  · exact .ok _
  · exact .error rfl

end Formula

theorem Literal.parse_formatFree (text : String) : FormatFree (parse text) := by
  refine (Formula.parse_formatFree text).bind fun formula => ?_
  unfold ofFormula
  split
  · exact .ok _
  · exact .ok _
  · exact .error rfl

namespace Rule

/-- A text is split at its first arrow, and a further one is an error. -/
theorem sides_of_split {text : String} {before after : List Char}
    (hsplit : text.toList = before ++ arrow :: after) (hbefore : arrow ∉ before) :
    sides text = if arrow ∈ after then .error (.multipleImplications (after.count arrow + 1))
      else .ok (Text.trim (String.ofList before), Text.trim (String.ofList after)) := by
  have hother : ∀ c ∈ before, decide (c ≠ arrow) = true := by
    intro c hc
    exact decide_eq_true fun heq => hbefore (heq ▸ hc)
  have hdrop : text.toList.dropWhile (· ≠ arrow) = arrow :: after := by
    rw [hsplit, List.dropWhile_append_of_pos hother]
    simp
  have htake : text.toList.takeWhile (· ≠ arrow) = before := by
    rw [hsplit, List.takeWhile_append_of_pos hother]
    simp
  simp only [sides, hdrop, htake, List.contains_iff_mem]

/-- The text is the two others with its only arrow between them. -/
structure HasSides (text left right : String) : Prop where
  text_eq : text = left ++ "→" ++ right
  left_free : arrow ∉ left.toList
  right_free : arrow ∉ right.toList

section Arrows

variable {text left right : String}

theorem HasSides.toList_eq (h : HasSides text left right) :
    text.toList = left.toList ++ arrow :: right.toList := by
  rw [h.text_eq]
  simp [arrow]

theorem HasSides.count_arrow (h : HasSides text left right) : text.toList.count arrow = 1 := by
  rw [h.toList_eq, List.count_append, List.count_cons_self,
    List.count_eq_zero_of_not_mem h.left_free, List.count_eq_zero_of_not_mem h.right_free]

/-- The two sides of the only arrow are trimmed and read in turn. -/
theorem HasSides.parse_eq (h : HasSides text left right) :
    parse text = do
      let premise ← Formula.parse (Text.trim left)
      let conclusion ← Literal.parse (Text.trim right)
      return ⟨premise, conclusion, text⟩ := by
  have hsides := sides_of_split h.toList_eq h.left_free
  rw [if_neg h.right_free, String.ofList_toList, String.ofList_toList] at hsides
  rw [parse, hsides]
  rfl

theorem HasSides.parse_formatFree (h : HasSides text left right) :
    ReadError.FormatFree (parse text) := by
  rw [h.parse_eq]
  refine (Formula.parse_formatFree _).bind fun premise => ?_
  exact (Literal.parse_formatFree _).bind fun conclusion => .ok _

/-- What reading a text comes to depends on the number of its arrows. -/
theorem arrow_cases (text : String) :
    (text.toList.count arrow = 0 ∧ parse text = .error .noImplication) ∨
      (∃ left right, HasSides text left right) ∨
      (2 ≤ text.toList.count arrow ∧
        parse text = .error (.multipleImplications (text.toList.count arrow))) := by
  by_cases hmem : arrow ∈ text.toList
  · right
    obtain ⟨before, after, hsplit, hbefore⟩ := List.eq_append_cons_of_mem hmem
    by_cases hmore : arrow ∈ after
    · have hcount : text.toList.count arrow = after.count arrow + 1 := by
        rw [hsplit, List.count_append, List.count_eq_zero_of_not_mem hbefore, List.count_cons_self,
          Nat.zero_add]
      have hpositive : 0 < after.count arrow := List.count_pos_iff.mpr hmore
      have hsides := sides_of_split hsplit hbefore
      rw [if_pos hmore, ← hcount] at hsides
      exact .inr ⟨by omega, by rw [parse, hsides]; rfl⟩
    · refine .inl ⟨String.ofList before, String.ofList after, ?_, by simpa, by simpa⟩
      apply String.toList_injective
      simp [hsplit, arrow]
  · left
    have hdrop : text.toList.dropWhile (· ≠ arrow) = [] := by
      refine List.dropWhile_eq_nil_iff.mpr fun c hc => decide_eq_true ?_
      rintro rfl
      exact hmem hc
    have hsides : sides text = .error .noImplication := by simp only [sides, hdrop]
    exact ⟨List.count_eq_zero_of_not_mem hmem, by rw [parse, hsides]; rfl⟩

/-- A text with an arrow that gives no rule has an error about the number of arrows exactly if there
    is more than one. -/
theorem isFormat_iff_of_parse {error : ReadError} (harrow : isImplication text = true)
    (hparse : parse text = .error error) :
    error.isFormat = true ↔ 2 ≤ text.toList.count arrow := by
  rcases arrow_cases text with ⟨hcount, _⟩ | ⟨left, right, hsides⟩ | ⟨hcount, herror⟩
  · have hmem : arrow ∈ text.toList := by simpa [isImplication] using harrow
    have hpositive := List.count_pos_iff.mpr hmem
    omega
  · have hcount := hsides.count_arrow
    rw [hsides.parse_formatFree error hparse]
    exact iff_of_false Bool.false_ne_true (by omega)
  · rw [hparse] at herror
    cases herror
    exact iff_of_true rfl hcount

end Arrows

end Rule

end ForwardChaining
