import DefLang.Command

/-! # The executable

Connects the command to the process: its arguments, its files and standard
streams, and its exit code.
-/
namespace DefLang.Command

/-- The number of a system error. Some calls report it negated. -/
def systemNumber (code : UInt32) : Nat := code.toInt32.toInt.natAbs

/-- The read error for a failed action. Whatever the system reports has a number. -/
def readErrorOf : IO.Error → ReadError
  | .noFileOrDirectory _ code details | .interrupted _ code details
  | .alreadyExists _ code details | .invalidArgument _ code details
  | .permissionDenied _ code details | .resourceExhausted _ code details
  | .inappropriateType _ code details | .noSuchThing _ code details
  | .otherError code details | .resourceBusy code details | .resourceVanished code details
  | .unsupportedOperation code details | .hardwareFault code details
  | .unsatisfiedConstraints code details | .illegalOperation code details
  | .protocolError code details | .timeExpired code details =>
      .ofNumber (systemNumber code) details
  | .unexpectedEof => .other "unexpected end of file"
  | .userError details => .other details

/-- The bytes that an action gives, or why it gives none. -/
def attempt (action : IO ByteArray) : IO (Except ReadError ByteArray) := do
  try
    return .ok (← action)
  catch error =>
    return .error (readErrorOf error)

/-- The sources of a running process. -/
def processSources : Sources IO where
  standardInput := attempt do (← IO.getStdin).readBinToEnd
  file path := attempt (IO.FS.readBinFile path)

end DefLang.Command

/-- Runs the command on the arguments of the process. The name under which the process
was invoked is not available to it, so the file name of the executable stands for it. -/
def main (arguments : List String) : IO UInt32 := do
  let program := (← IO.appPath).fileName.getD "rdefc"
  let outcome ← DefLang.Command.execute DefLang.Command.processSources program arguments
  (← IO.getStdout).putStr outcome.standardOutput
  (← IO.getStderr).putStr outcome.standardError
  return outcome.code.toUInt32
