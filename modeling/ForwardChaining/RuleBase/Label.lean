import ForwardChaining.Text.Alphanumeric

namespace ForwardChaining.Label

/-- The capital letter at an index, from `A` at 0. -/
def letter (index : Nat) : Char :=
  Char.ofNat ('A'.toNat + index)

/-- The letters of the label at an index. Labels go by length and then by the alphabet: `A` to
    `Z`, then `AA`, `AB` and so on. -/
def letters (index : Nat) : List Char :=
  if index < 26 then [letter index] else letters (index / 26 - 1) ++ [letter (index % 26)]
termination_by index
decreasing_by omega

theorem letters_ne_nil (index : Nat) : letters index ≠ [] := by
  rw [letters]
  split <;> simp

/-- The label at an index. -/
def ofIndex (index : Nat) : String :=
  String.ofList (letters index)

/-- A statement without the alphanumeric label, full stop and space that it may begin with. -/
def strip (statement : String) : String :=
  match statement.toList.takeWhile Text.isAlphanumeric,
      statement.toList.dropWhile Text.isAlphanumeric with
  | _ :: _, '.' :: ' ' :: rest => String.ofList rest
  | _, _ => statement

end ForwardChaining.Label
