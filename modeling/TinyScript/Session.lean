import TinyScript.Report.Failure
import TinyScript.Run.Eval
import TinyScript.Source.File
import TinyScript.Syntax.Program

/-! Sessions: programs run one after another on one machine, so that what one declares the next can
use. A text with any error in it runs not at all. -/
namespace TinyScript

structure Session where
  machine : Machine

namespace Session

/-- A session that has run nothing yet. -/
def start (readings : Nat → Int64) : Session := ⟨Machine.start readings⟩

/-- The session with another clock. -/
def withClock (readings : Nat → Int64) (session : Session) : Session :=
  ⟨{ session.machine with clock := { session.machine.clock with readings } }⟩

/-- What the session has printed, and the session with nothing printed. -/
def takeOutput (session : Session) : String × Session :=
  (session.machine.output, ⟨{ session.machine with output := "" }⟩)

/-- Runs a parsed program unless there were errors in it. -/
def runParsed (fuel : Nat) (path source : String) (parsed : Parsed) (session : Session) :
    Outcome Failure Unit × Session :=
  if parsed.hasErrors then
    (.failed (.malformed path source parsed.lexicalErrors parsed.errors), session)
  else
    match interpret fuel parsed.statements session.machine with
    | (.done (), machine) => (.done (), ⟨machine⟩)
    | (.failed error, machine) => (.failed (.aborted path source error), ⟨machine⟩)
    | (.exhausted, machine) => (.exhausted, ⟨machine⟩)

/-- Runs a source text. -/
def run (fuel : Nat) (path source : String) (session : Session) :
    Outcome Failure Unit × Session :=
  session.runParsed fuel path source (parse source)

/-- Runs a file. The scanner reads ahead of the text it uses; the last fault among its reads is
reported, and then nothing runs. The source that reports show is what the scanner has read. -/
def runFile (fuel : Nat) (path : String) (file : File) (session : Session) :
    Outcome Failure Unit × Session :=
  match file.open? with
  | .error fault => (.failed (.unreadable fault), session)
  | .ok readings =>
    let (items, scanner) := Scanner.run { rest := Reading.text readings }
    let asked := readings.take scanner.reads
    match Reading.lastFault? asked with
    | some fault => (.failed (.unreadable fault), session)
    | none =>
      session.runParsed fuel path (String.ofList (Reading.text asked)) (parseItems items)

end Session

end TinyScript
