import StreamScript.CommandLine

/-! # The program

The outer layer of the command line: it reads the files that are named on it, runs the command
and writes what the run gives. -/

open StreamScript

/-- The number of a system error.  Where it is reported with its sign turned, it is turned back. -/
def errorNumber (code : UInt32) : Nat := if code < 0x80000000 then code.toNat else (0 - code).toNat

/-- The number and the words of a system error. -/
def numberAndReason : IO.Error → Nat × String
  | .alreadyExists _ code reason | .invalidArgument _ code reason
  | .permissionDenied _ code reason | .resourceExhausted _ code reason
  | .inappropriateType _ code reason | .noSuchThing _ code reason => (errorNumber code, reason)
  | .interrupted _ code reason | .noFileOrDirectory _ code reason => (errorNumber code, reason)
  | .otherError code reason | .resourceBusy code reason | .resourceVanished code reason
  | .unsupportedOperation code reason | .hardwareFault code reason
  | .unsatisfiedConstraints code reason | .illegalOperation code reason
  | .protocolError code reason | .timeExpired code reason => (errorNumber code, reason)
  | .unexpectedEof => (0, "unexpected end of file")
  | .userError reason => (0, reason)

/-- Read a file as text. -/
def readSource (path : String) : IO (Except ReadError String) := do
  try
    let bytes ← IO.FS.readBinFile path
    return (Content.file bytes.toList).read
  catch e =>
    let (number, reason) := numberAndReason e
    return .error (.ofNumber number reason)

/-- Read the files, run the command, write its outputs and give its exit code. -/
def main (args : List String) : IO UInt32 := do
  let mut sources := #[]
  for path in (CommandLine.Request.ofArgs args).paths do
    sources := sources.push (path, ← readSource path)
  let outcome :=
    CommandLine.run (fun path => (sources.toList.lookup path).getD (.error .notFound)) args
  (← IO.getStdout).putStr outcome.stdout
  (← IO.getStderr).putStr outcome.stderr
  return UInt32.ofNat outcome.exit
