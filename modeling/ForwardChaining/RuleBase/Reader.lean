import ForwardChaining.RuleBase.Progress

namespace ForwardChaining.RuleBase

/-- What reading a source gives: bytes, and then its end or the reason why no more can be read. -/
structure Source where
  bytes : List UInt8
  failure? : Option String := none

/-- Why a rule base could not be read. -/
inductive InputError where
  /-- The source failed. -/
  | unreadable (reason : String)
  /-- The source does not hold a rule base. -/
  | malformed
deriving DecidableEq

/-- The wording of an error. -/
def InputError.message : InputError → String
  | .unreadable reason => s!"Failed to read rule base: {reason}"
  | .malformed => "Failed to parse rule base: not a rule base written in JSON"

/-- Reads a rule base from a source. A byte that rules out a rule base is found before a failure
    of the source behind it. -/
def read (source : Source) : Except InputError RuleBase :=
  match source.bytes.foldlM Progress.step .start, source.failure? with
  | none, _ => .error .malformed
  | some _, some reason => .error (.unreadable reason)
  | some (.done ruleBase), none => .ok ruleBase
  | some _, none => .error .malformed

/-- Reads a rule base from a text. -/
def ofJson (text : String) : Except InputError RuleBase :=
  read ⟨text.toUTF8.data.toList, none⟩

end ForwardChaining.RuleBase
