import ForwardChaining.Config
import ForwardChaining.Numeral

namespace ForwardChaining.CommandLine

/-- What the arguments ask for. -/
structure Arguments where
  /-- Where the rule base is, if not on standard input. -/
  path? : Option String := none
  /-- Write the result as JSON. -/
  json : Bool := false
  /-- Write a conclusion on the statement that the answer is about. -/
  conclusion : Bool := false
  passLimit? : Option Nat := none
  /-- The time limit in seconds. -/
  timeLimit? : Option Numeral := none
  traceDuplicates : Bool := false

/-- Why the arguments do not lead to a solution. -/
inductive Halt where
  | help
  | version
  /-- The arguments are in error. -/
  | refused
deriving DecidableEq

namespace Arguments

/-- Takes a path. There can be only one, and not an empty one. -/
def withPath (arguments : Arguments) (path : String) : Except Halt Arguments :=
  if path.isEmpty || arguments.path?.isSome then .error .refused
  else .ok { arguments with path? := some path }

/-- A flag. -/
inductive Flag where
  | json
  | conclusion
  | traceDuplicates
  | help
  | version

/-- The flag with a long name. -/
def Flag.ofName? : String → Option Flag
  | "json" => some .json
  | "conclusion" => some .conclusion
  | "trace-duplicates" => some .traceDuplicates
  | "help" => some .help
  | "version" => some .version
  | _ => none

/-- The flag with a letter. -/
def Flag.ofLetter? : Char → Option Flag
  | 'j' => some .json
  | 'c' => some .conclusion
  | 'h' => some .help
  | 'V' => some .version
  | _ => none

/-- Takes a flag. None can be given twice. -/
def withFlag (arguments : Arguments) : Flag → Except Halt Arguments
  | .json => if arguments.json then .error .refused else .ok { arguments with json := true }
  | .conclusion =>
    if arguments.conclusion then .error .refused else .ok { arguments with conclusion := true }
  | .traceDuplicates =>
    if arguments.traceDuplicates then .error .refused
    else .ok { arguments with traceDuplicates := true }
  | .help => .error .help
  | .version => .error .version

/-- A count: an optional plus and digits, at most the greatest count. -/
def count? (text : String) : Option Nat :=
  let digits :=
    match text.toList with
    | '+' :: digits => digits
    | digits => digits
  let count := Numeral.digitsValue digits
  if !digits.isEmpty && digits.all Char.isDigit && count ≤ maxCount then some count else none

/-- An option that takes a value. -/
inductive Valued where
  | passLimit
  | timeLimit

/-- The option with a long name. -/
def Valued.ofName? : String → Option Valued
  | "pass-limit" => some .passLimit
  | "time-limit" => some .timeLimit
  | _ => none

/-- Takes the value of an option. No option can be given twice. -/
def withValue (arguments : Arguments) (option : Valued) (text : String) :
    Except Halt Arguments :=
  match option with
  | .passLimit =>
    match arguments.passLimit?, count? text with
    | none, some count => .ok { arguments with passLimit? := some count }
    | _, _ => .error .refused
  | .timeLimit =>
    match arguments.timeLimit?, Numeral.parse? text with
    | none, some numeral => .ok { arguments with timeLimit? := some numeral }
    | _, _ => .error .refused

/-- The name of a long option and the value written after an equals sign, if there is one. -/
def splitName (chars : List Char) : String × Option String :=
  let name := String.ofList (chars.takeWhile (· ≠ '='))
  match chars.dropWhile (· ≠ '=') with
  | [] => (name, none)
  | _ :: value => (name, some (String.ofList value))

/-- Whether an argument can be the value of the option before it. -/
def isValue (argument : String) : Bool :=
  argument.toList.head? ≠ some '-'

/-- Takes the remaining arguments, one after the other. The first that is in error, or asks for
    help or the version, decides. -/
def take (arguments : Arguments) (optionsEnded : Bool) : List String → Except Halt Arguments
  | [] => .ok arguments
  | argument :: rest =>
    match optionsEnded, argument.toList with
    | false, ['-', '-'] => arguments.take true rest
    | false, '-' :: '-' :: long =>
      let (name, value?) := splitName long
      match Flag.ofName? name, Valued.ofName? name, value? with
      | some flag, _, none => do (← arguments.withFlag flag).take false rest
      | _, some option, some value => do (← arguments.withValue option value).take false rest
      | _, some option, none =>
        match rest with
        | value :: rest =>
          if isValue value then do (← arguments.withValue option value).take false rest
          else .error .refused
        | [] => .error .refused
      | _, _, _ => .error .refused
    | false, '-' :: letter :: letters => do
      let arguments ← (letter :: letters).foldlM
        (fun arguments letter =>
          match Flag.ofLetter? letter with
          | some flag => arguments.withFlag flag
          | none => .error .refused) arguments
      arguments.take false rest
    | _, _ => do (← arguments.withPath argument).take optionsEnded rest

/-- What a list of arguments asks for. -/
def parse (arguments : List String) : Except Halt Arguments :=
  take {} false arguments

/-- The pass limit asked for, within its bounds. -/
def applyPassLimit (arguments : Arguments) (config : Config) : Except String Config :=
  match arguments.passLimit? with
  | none => .ok config
  | some count =>
    match config.passLimit.set count with
    | .ok setting => .ok { config with passLimit := setting }
    | .error _ =>
      .error (s!"{config.passLimit.name} requires a value between " ++
        s!"{config.passLimit.least} and {config.passLimit.greatest}")

/-- The time limit asked for, within its bounds. -/
def applyTimeLimit (arguments : Arguments) (config : Config) : Except String Config :=
  match arguments.timeLimit? with
  | none => .ok config
  | some numeral =>
    match numeral.nanoseconds?.bind (config.timeLimit.set · |>.toOption) with
    | some setting => .ok { config with timeLimit := setting }
    | none =>
      .error (s!"{config.timeLimit.name} requires a value of at least " ++
        s!"{config.timeLimit.least / 1000000000} seconds")

/-- The settings that the arguments ask for, or which bounds one of them is out of. The pass limit
    is looked at first. -/
def config (arguments : Arguments) : Except String Config := do
  let config ← arguments.applyPassLimit {}
  let config ← arguments.applyTimeLimit config
  return { config with
    traceDuplicates := { config.traceDuplicates with value := arguments.traceDuplicates } }

end Arguments

end ForwardChaining.CommandLine
