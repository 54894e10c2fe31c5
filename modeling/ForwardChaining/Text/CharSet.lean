namespace ForwardChaining.Text

/-- A set of characters, given by inclusive intervals of code points. -/
structure CharSet where
  intervals : List (Nat × Nat)

/-- A character belongs to a set when some interval holds its code point. -/
def CharSet.contains (set : CharSet) (c : Char) : Bool :=
  set.intervals.any fun interval => interval.1 ≤ c.toNat && c.toNat ≤ interval.2

theorem CharSet.contains_iff {set : CharSet} {c : Char} :
    set.contains c = true ↔
      ∃ interval ∈ set.intervals, interval.1 ≤ c.toNat ∧ c.toNat ≤ interval.2 := by
  simp [CharSet.contains]

end ForwardChaining.Text
