namespace ForwardChaining

/-- A named value with the bounds it is kept within. -/
structure Setting (α : Type) where
  name : String
  least : α
  greatest : α
  value : α
deriving DecidableEq

/-- Changes a setting, or gives back a value that is out of bounds. -/
def Setting.set {α : Type} [LE α] [DecidableLE α] (setting : Setting α) (value : α) :
    Except α (Setting α) :=
  if setting.least ≤ value ∧ value ≤ setting.greatest then
    .ok { setting with value := value }
  else
    .error value

/-- The greatest count: one less than two to the 64. -/
def maxCount : Nat := 18446744073709551615

/-- The longest time in nanoseconds, one nanosecond short of two to the 64 seconds. -/
def maxDuration : Nat := maxCount * 1000000000 + 999999999

/-- The settings of a session. -/
structure Config where
  /-- The most passes that chaining makes. -/
  passLimit : Setting Nat := ⟨"pass_limit", 1, maxCount, maxCount⟩
  /-- The most nanoseconds that chaining takes. -/
  timeLimit : Setting Nat := ⟨"time_limit", 0, maxDuration, maxDuration⟩
  /-- Whether an assumption that repeats a value is noted. -/
  traceDuplicates : Setting Bool := ⟨"trace_duplicates", false, true, false⟩
deriving DecidableEq

end ForwardChaining
