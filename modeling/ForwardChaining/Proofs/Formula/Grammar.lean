import ForwardChaining.Formula.Parser

namespace ForwardChaining.Formula

/-- The levels of the grammar, from the loosest to the tightest. -/
inductive Level where
  | disjunction
  | conjunction
  | operand
  | primary
deriving DecidableEq

/-- The grammar. The tokens spell the formula at the level, and the number is the most negations and
    opening parentheses that are open at one point of the derivation. A disjunction is one or more
    conjunctions with `∨` between them and a conjunction is one or more operands with `∧` between
    them, both grouped to the left; an operand is a primary behind any number of `¬`; a primary is
    an atom, or a disjunction in parentheses. -/
inductive Derives : Level → List Token → Formula → Nat → Prop where
  | atom (name : String) : Derives .primary [.atom name] (.atom name) 0
  | group {tokens : List Token} {formula : Formula} {nesting : Nat}
      (inner : Derives .disjunction tokens formula nesting) :
      Derives .primary (.leftParen :: (tokens ++ [.rightParen])) formula (nesting + 1)
  | primary {tokens : List Token} {formula : Formula} {nesting : Nat}
      (inner : Derives .primary tokens formula nesting) : Derives .operand tokens formula nesting
  | not {tokens : List Token} {formula : Formula} {nesting : Nat}
      (inner : Derives .operand tokens formula nesting) :
      Derives .operand (.not :: tokens) (.not formula) (nesting + 1)
  | operand {tokens : List Token} {formula : Formula} {nesting : Nat}
      (inner : Derives .operand tokens formula nesting) :
      Derives .conjunction tokens formula nesting
  | and {tokens tokens' : List Token} {left right : Formula} {nesting nesting' : Nat}
      (first : Derives .conjunction tokens left nesting)
      (next : Derives .operand tokens' right nesting') :
      Derives .conjunction (tokens ++ .and :: tokens') (.and left right) (max nesting nesting')
  | conjunction {tokens : List Token} {formula : Formula} {nesting : Nat}
      (inner : Derives .conjunction tokens formula nesting) :
      Derives .disjunction tokens formula nesting
  | or {tokens tokens' : List Token} {left right : Formula} {nesting nesting' : Nat}
      (first : Derives .disjunction tokens left nesting)
      (next : Derives .conjunction tokens' right nesting') :
      Derives .disjunction (tokens ++ .or :: tokens') (.or left right) (max nesting nesting')

/-- Any number of parentheses around an atom, each of them open at the atom. -/
theorem derives_parentheses (name : String) (count : Nat) :
    Derives .disjunction
      (List.replicate count .leftParen ++ .atom name :: List.replicate count .rightParen)
      (.atom name) count := by
  have hprimary : Derives .primary
      (List.replicate count .leftParen ++ .atom name :: List.replicate count .rightParen)
      (.atom name) count := by
    induction count with
    | zero => exact .atom name
    | succ count ih =>
      have hgroup := Derives.group (.conjunction (.operand (.primary ih)))
      rw [List.append_assoc, List.cons_append, ← List.replicate_succ'] at hgroup
      exact hgroup
  exact .conjunction (.operand (.primary hprimary))

end ForwardChaining.Formula
