import ForwardChaining.CommandLine

namespace ForwardChaining.CommandLine

/-- Chains by the real clock, a pass at a time, from so many passes made. -/
partial def chainTimed (started passes : Nat) (session : Session) : IO Session := do
  if session.config.passLimit.value ≤ passes then
    return session.finishChain .passLimit passes
  let elapsed := (← IO.monoNanosNow) - started
  match Session.chainFrom (fun _ => elapsed) 1 passes session with
  | (.passLimit, passes, session) => chainTimed started passes session
  | (outcome, passes, session) => return session.finishChain outcome passes

/-- The reason for a failure, with the number the system gives it. -/
def failureText : IO.Error → String
  | .noFileOrDirectory .. => "No such file or directory (os error 2)"
  | .permissionDenied .. => "Permission denied (os error 13)"
  | .inappropriateType _ code details => s!"{details} (os error {code})"
  | error => toString error

/-- All the bytes of a stream. -/
partial def readAll (stream : IO.FS.Stream) (read : ByteArray) : IO ByteArray := do
  let chunk ← stream.read 65536
  if chunk.isEmpty then return read else readAll stream (read ++ chunk)

/-- What reading a path, or standard input, gives. -/
def openSource (path? : Option String) : IO RuleBase.Source := do
  try
    let bytes ← match path? with
      | some path => IO.FS.readBinFile path
      | none => readAll (← IO.getStdin) .empty
    return ⟨bytes.data.toList, none⟩
  catch error => return ⟨[], some (failureText error)⟩

/-- The output of a job, by the real clock. -/
def outputTimed (job : Job) : IO Output := do
  match RuleBase.read (← openSource job.arguments.path?) with
  | .error error => return Job.failure error
  | .ok ruleBase =>
    let session := Session.load { config := job.config } ruleBase
    let session ← chainTimed (← IO.monoNanosNow) 0 session
    return job.report ruleBase (session.conclude ruleBase).1

/-- Writes what a run leaves behind. -/
def emit (output : Output) : IO UInt32 := do
  for message in output.messages do
    IO.eprintln message
  IO.print output.text
  return output.exit.toUInt32

end ForwardChaining.CommandLine

open ForwardChaining.CommandLine in
/-- Solves the rule base that the arguments name. -/
def main (arguments : List String) : IO UInt32 := do
  match Job.ofArguments arguments with
  | .error output => emit output
  | .ok job =>
    IO.eprintln job.announcement
    emit (← outputTimed job)
