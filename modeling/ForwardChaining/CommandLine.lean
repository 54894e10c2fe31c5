import ForwardChaining.CommandLine.Arguments
import ForwardChaining.CommandLine.FileTree
import ForwardChaining.Session.Solve
import ForwardChaining.Solution.Encoding

namespace ForwardChaining.CommandLine

/-- What a run leaves behind. -/
structure Output where
  exit : Nat
  /-- The text on standard output. -/
  text : String := ""
  /-- The lines on standard error. -/
  messages : List String := []

/-- The exit code for a verdict. -/
def exitCode : Option Bool → Nat
  | some true => 0
  | some false => 1
  | none => 2

/-- The exit code for settings out of bounds and for rule bases that cannot be read. -/
def inputExitCode : Nat := 3

/-- Lines as a text. -/
def unlines (lines : List String) : String :=
  String.join (lines.map (· ++ "\n"))

/-- The name and the version of the program. -/
def versionText : String := "otter_chain 0.0.1\n"

/-- How the program is used. -/
def helpText : String :=
  unlines
    ["A library for deriving the truth of a literal from propositional axioms and implication " ++
        "rules by forward chaining, with a readable derivation trace.",
      "",
      "Usage: otter_chain [OPTIONS] [PATH]",
      "",
      "Arguments:",
      "  [PATH]  A rule base, written in JSON. Read from stdin if omitted",
      "",
      "Options:",
      "  -j, --json                  Write the result as JSON",
      "  -c, --conclusion            Write a conclusion on the statement described by the " ++
        "answer, if there is one",
      "      --pass-limit <PASSES>   The most passes to make through the implication rules",
      "      --time-limit <SECONDS>  The most time to spend forward chaining, in seconds",
      "      --trace-duplicates      Note axioms which restate the value of an atom in the trace",
      "  -h, --help                  Print help",
      "  -V, --version               Print version"]

/-- A solution as lines: the steps as comments, the facts as a valuation, and the result. -/
def solutionLines (solution : Solution) : List String :=
  solution.steps.map (fun step => "c " ++ step.text) ++
    ["v " ++ solution.facts.render, "s " ++ solution.result]

/-- A rule base to be read and solved. -/
structure Job where
  arguments : Arguments
  config : Config

namespace Job

/-- What the arguments ask for: a job, or nothing but an output. -/
def ofArguments (arguments : List String) : Except Output Job :=
  match Arguments.parse arguments with
  | .error .help => .error ⟨0, helpText, []⟩
  | .error .version => .error ⟨0, versionText, []⟩
  | .error .refused => .error ⟨2, "", ["error: the arguments are not understood"]⟩
  | .ok arguments =>
    match arguments.config with
    | .error message => .error ⟨inputExitCode, "", [message]⟩
    | .ok config => .ok ⟨arguments, config⟩

/-- The message on where the rule base is read from. -/
def announcement (job : Job) : String :=
  match job.arguments.path? with
  | some path => "c Reading rule base from " ++ Text.quoted path
  | none => "c Reading rule base from stdin"

/-- The sentence on the statement that the answer is about. -/
def conclusionLine (ruleBase : RuleBase) (solution : Solution) : String :=
  (solution.conclusion ruleBase).getD "c No statement is described by the answer."

/-- The output for a solution. -/
def report (job : Job) (ruleBase : RuleBase) (solution : Solution) : Output where
  exit := exitCode solution.isAnswerTrue
  text := unlines <|
    (if job.arguments.json then [solution.toJson.pretty] else solutionLines solution) ++
      if job.arguments.conclusion then [conclusionLine ruleBase solution] else []

/-- The output if there is no rule base to solve. -/
def failure (error : RuleBase.InputError) : Output where
  exit := inputExitCode
  messages := ["c " ++ error.message]

/-- The output of a job on what its source gives. -/
def output (job : Job) (source : RuleBase.Source) (clock : Clock) : Output :=
  match RuleBase.read source with
  | .ok ruleBase => job.report ruleBase (ruleBase.solve job.config clock)
  | .error error => failure error

end Job

/-- Runs the program on its arguments, with a file tree to find paths in and what reading standard
    input gives. -/
def run (arguments : List String) (tree : FileTree) (stdin : RuleBase.Source) (clock : Clock) :
    Output :=
  match Job.ofArguments arguments with
  | .error output => output
  | .ok job =>
    let output := job.output (job.arguments.path?.elim stdin tree.source) clock
    { output with messages := job.announcement :: output.messages }

end ForwardChaining.CommandLine
