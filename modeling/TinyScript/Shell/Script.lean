import TinyScript.Report.Pretty
import TinyScript.Session
import TinyScript.Source.Directory
import TinyScript.Text.Blank

/-! Scripts run one after another in a single session, up to the first that fails. -/
namespace TinyScript

/-- What a process leaves behind. -/
structure Transcript where
  code : Nat := 0
  stdout : String := ""
  stderr : String := ""
deriving DecidableEq

namespace Transcript

/-- What is written before another transcript. -/
def after (stdout stderr : String) (rest : Transcript) : Transcript :=
  { rest with stdout := stdout ++ rest.stdout, stderr := stderr ++ rest.stderr }

end Transcript

namespace Shell

/-- How reports are written. -/
structure Options where
  pretty : Bool := false
  timings : Bool := false
  coloured : Bool := false

/-- The paths in a list separated by semicolons; blanks around a path do not count. -/
def scriptPaths (scripts : String) : List String :=
  ((scripts.splitOn ";").map Text.trim).filter (· ≠ "")

/-- The report of a failure. -/
def report (options : Options) (failure : Failure) : String :=
  if options.pretty then failure.pretty ⟨options.coloured⟩ else failure.plain ++ "\n"

/-- A status line: a word that ends in the eleventh column, and what it is about. -/
def statusLine (options : Options) (colour word about : String) : String :=
  let style : Style := ⟨options.coloured⟩
  style.bold (some ("38;5;" ++ colour)) ++ Snippet.padded 11 word ++ style.reset ++
    " " ++ about ++ "\n"

/-- The status line in front of a script. -/
def runningLine (options : Options) (path : String) : String :=
  if options.timings then statusLine options "13" "Running" path else ""

/-- Milliseconds as seconds with two places. -/
def secondsText (milliseconds : Nat) : String :=
  let hundredths := (milliseconds + 5) / 10
  let places := toString (hundredths % 100)
  toString (hundredths / 100) ++ "." ++ (if places.length < 2 then "0" ++ places else places) ++ "s"

/-- The status line behind a script. -/
def finishedLine (options : Options) (milliseconds : Nat) : String :=
  if options.timings then
    statusLine options "10" "Finished" ("in " ++ secondsText milliseconds)
  else ""

/-- The exit status of an outcome, and the report that goes with it. -/
def verdict (options : Options) : Outcome Failure Unit → Nat × String
  | .done () => (0, "")
  | .failed failure => (failure.exitCode, report options failure)
  | .exhausted => (70, "")

/-- Runs scripts from a directory; each is said to take the given time. -/
def runScripts (fuel : Nat) (options : Options) (directory : Directory) (milliseconds : Nat) :
    Session → List String → Transcript
  | _, [] => {}
  | session, path :: paths =>
    let (outcome, session) := session.runFile fuel path (directory.file path)
    let (printed, session) := session.takeOutput
    let (code, complaint) := verdict options outcome
    let status := runningLine options path ++ finishedLine options milliseconds ++ complaint
    match outcome with
    | .done () =>
      (runScripts fuel options directory milliseconds session paths).after printed status
    | _ => { code, stdout := printed, stderr := status }

end Shell

end TinyScript
