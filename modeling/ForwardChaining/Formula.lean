import ForwardChaining.Text.Quoted

namespace ForwardChaining

/-- A propositional formula over named atoms. -/
inductive Formula where
  | atom (name : String)
  | not (body : Formula)
  | and (left right : Formula)
  | or (left right : Formula)
deriving DecidableEq, Inhabited

namespace Formula

/-- The most operators on a path from the root to an atom. -/
def height : Formula → Nat
  | .atom _ => 0
  | .not body => body.height + 1
  | .and left right => max left.height right.height + 1
  | .or left right => max left.height right.height + 1

/-- How tightly the outermost operator binds. -/
def precedence : Formula → Nat
  | .or _ _ => 1
  | .and _ _ => 2
  | .not _ => 3
  | .atom _ => 4

/-- The text, in parentheses if they are needed. -/
def parenthesised (needed : Bool) (text : String) : String :=
  if needed then "(" ++ text ++ ")" else text

/-- A formula as it is written. An operand is put in parentheses only if its operator binds less
    tightly than its place asks for: `∧` and `∨` group to the left, so a right operand with the
    same operator needs them and a left one does not. -/
def render : Formula → String
  | .atom name => name
  | .not body => "¬" ++ parenthesised (body.precedence < 3) body.render
  | .and left right =>
    parenthesised (left.precedence < 2) left.render ++ " ∧ " ++
      parenthesised (right.precedence < 3) right.render
  | .or left right =>
    parenthesised (left.precedence < 1) left.render ++ " ∨ " ++
      parenthesised (right.precedence < 2) right.render

/-- A formula as nested applications of its operators, each atom in double quotes. -/
def outline : Formula → String
  | .atom name => "Atom(" ++ Text.quoted name ++ ")"
  | .not body => "Not(" ++ body.outline ++ ")"
  | .and left right => "And(" ++ left.outline ++ ", " ++ right.outline ++ ")"
  | .or left right => "Or(" ++ left.outline ++ ", " ++ right.outline ++ ")"

end Formula

end ForwardChaining
