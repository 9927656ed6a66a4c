import JsonShape.CommandLine.Run

/-!
# The executable

Asks the operating system what the command needs to know and writes what the command leaves behind.
Programs are not started from here, so a document comes from the arguments, the standard input or a
file.
-/

namespace JsonShape

namespace CommandLine

/-- The error with a number. Some actions report the number itself and others its negative. -/
def numbered (number : UInt32) : Option SystemError :=
  SystemError.ofNumber? number.toInt32.toInt.natAbs

/-- The error of the operating system that an action ran into. -/
def systemErrorOf (cause : IO.Error) : SystemError :=
  let known := match cause with
    | .noFileOrDirectory _ number _ => numbered number
    | .permissionDenied _ number _ => numbered number
    | .inappropriateType _ number _ => numbered number
    | .invalidArgument _ number _ => numbered number
    | _ => none
  known.getD (.other (toString cause))

/-- All bytes that an action reads, or the reason why there are none. -/
def bytesOf (action : IO ByteArray) : IO (Except SystemError ByteArray) := do
  try
    return .ok (← action)
  catch cause =>
    return .error (systemErrorOf cause)

/-- The host as far as one source needs it: nothing else is read. -/
def hostFor (source : Source) (editor : Option String) : IO Host := do
  let standardInput ← match source with
    | .standardInput => bytesOf do (← IO.getStdin).readBinToEnd
    | _ => pure (.ok .empty)
  let file ← match source with
    | .file path => bytesOf (IO.FS.readBinFile path)
    | _ => pure (.ok .empty)
  return {
    standardInput
    editor
    fileBytes := fun _ => file
    edit := fun _ => .notStarted (.other "programs cannot be started from here") }

/-- Writes what the command leaves behind. -/
def Outcome.write (outcome : Outcome) : IO UInt32 := do
  let errors ← IO.getStderr
  for event in outcome.log do
    errors.putStr (logLine event ++ "\n")
  errors.putStr outcome.report
  (← IO.getStdout).putStr outcome.output
  return outcome.code.toUInt32

end CommandLine

end JsonShape

/-- Runs the command on the operating system. -/
def main (arguments : List String) : IO UInt32 := do
  match JsonShape.CommandLine.Arguments.read arguments with
  | .error halt => halt.outcome.write
  | .ok given =>
    let editor ← IO.getEnv "EDITOR"
    let source := given.source editor
    let host ← JsonShape.CommandLine.hostFor source editor
    (given.outcome (host.text source)).write
