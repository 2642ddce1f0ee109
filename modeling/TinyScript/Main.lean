import Std.Time.DateTime.Timestamp
import TinyScript.Shell.Invocation

/-! The command line program: it reads files, lines and clocks and leaves all decisions to the
shell. -/
namespace TinyScript.Shell

/-- More steps than any run takes. -/
private def boundlessFuel : Nat := 0x4000000000000000

/-- A session whose clock shows whole seconds of the present time. -/
private def atPresent (session : Session) : IO Session := do
  let seconds := (← Std.Time.Timestamp.now).toSecondsSinceUnixEpoch.val
  return session.withClock fun _ => Int64.ofInt seconds

/-- Reads a file. A path through a file fails with its name when it is opened, a directory without
one when it is read. -/
private def readFile (path : String) : IO File := do
  try
    return .contents (← IO.FS.readBinFile path).toList
  catch
    | .noFileOrDirectory .. => return .absent .notFound
    | .permissionDenied .. => return .absent .permissionDenied
    | .inappropriateType none .. => return .directory
    | .inappropriateType .. => return .absent .notADirectory
    | .invalidArgument .. => return .absent .invalidName
    | _ => return .absent .other

private def write (stdout stderr : String) : IO Unit := do
  IO.print stdout
  (← IO.getStdout).flush
  IO.eprint stderr

private def runPaths (options : Options) (session : Session) : List String → IO Nat
  | [] => return 0
  | path :: paths => do
    write "" (runningLine options path)
    let started ← IO.monoMsNow
    let (outcome, session) := (← atPresent session).runFile boundlessFuel path (← readFile path)
    let (printed, session) := session.takeOutput
    write printed (finishedLine options ((← IO.monoMsNow) - started))
    let (code, complaint) := verdict options outcome
    write "" complaint
    if code = 0 then runPaths options session paths else return code

/-- Reads bytes up to and including the next newline. -/
private partial def readLine (stream : IO.FS.Stream) (line : ByteArray) : IO (List UInt8) := do
  let piece ← stream.read 1
  let line := line ++ piece
  if piece.isEmpty || piece.toList = [0x0A] then return line.toList else readLine stream line

private partial def runLoop (loop : Loop) (options : Options) (session : Session) : IO Nat := do
  write prompt ""
  match ← readLine (← IO.getStdin) .empty with
  | [] => return 0
  | bytes =>
    match Input.ofBytes bytes with
    | .exit => return 0
    | .invalid =>
      write "" invalidReport
      return invalidCode
    | .text line =>
      let (printed, complaint, session) :=
        loop.answer boundlessFuel options line (← atPresent session)
      write printed complaint
      runLoop loop options session

/-- Carries out a command and gives the exit status. -/
def carryOut (command : Command) : IO Nat := do
  let forced := coloured (← IO.getEnv "FORCE_COLOR")
  let options : Options := { coloured := forced || (← (← IO.getStderr).isTty) }
  let session := Session.start fun _ => 0
  match command with
  | .run scripts pretty timings =>
    runPaths { options with pretty, timings } session (scriptPaths scripts)
  | .repl pretty => runLoop .evaluate { options with pretty } session
  | .listTokens => runLoop .listTokens options session
  | .listTrees => runLoop .listTrees options session

end TinyScript.Shell

def main (arguments : List String) : IO UInt32 := do
  match TinyScript.Command.ofArguments? arguments with
  | some command => return (← TinyScript.Shell.carryOut command).toUInt32
  | none =>
    IO.eprint TinyScript.Shell.usage
    return 2
