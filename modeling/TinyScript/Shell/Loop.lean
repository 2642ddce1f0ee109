import TinyScript.Shell.Script

/-! Loops that answer one line of input after another: they run it, list its tokens or print its
tree. A loop ends at the end of its input, at `.exit` and at a line that is no text. -/
namespace TinyScript.Shell

inductive Loop where
  | evaluate
  | listTokens
  | listTrees
deriving DecidableEq

def prompt : String := ">> "

/-- What stands for the file name in reports about a line. -/
def replPath : String := "<repl>"

/-- A line without its line end. -/
def withoutLineEnd (line : List Char) : List Char :=
  let line := if line.getLast? = some '\n' then line.dropLast else line
  if line.getLast? = some '\r' then line.dropLast else line

/-- What becomes of one line. -/
inductive Input where
  | text (line : String)
  | exit
  | invalid
deriving DecidableEq

def Input.ofBytes (bytes : List UInt8) : Input :=
  match Utf8.decode? bytes with
  | none => .invalid
  | some line =>
    let text := String.ofList (withoutLineEnd line)
    if text = ".exit" then .exit else .text text

/-- Remarks on their own lines, each behind a tab. -/
def indented (separator : String) (notes : List String) : String :=
  if notes = [] then "" else "\t" ++ String.intercalate separator notes ++ "\n"

/-- The listing of one item. -/
def itemListing : Item → String
  | .ok token => token.text ++ "\n"
  | .error error =>
    error.illegalToken.text ++ "\n" ++ error.report ++ "\n" ++ indented "\n\t" error.cause.notes

def tokenListing (source : String) : String := String.join ((scan source).map itemListing)

def treeListing (source : String) : String :=
  let parsed := parse source
  String.join (parsed.lexicalErrors.map fun error => error.report ++ "\n") ++
    String.join (parsed.errors.map fun error =>
      error.report ++ "\n" ++ indented ";\n\t" error.notes) ++
    if parsed.statements.isEmpty then "" else parsed.text ++ "\n"

/-- The texts for standard output and standard error that answer a line, and the session behind
it. Empty lines get no answer. -/
def Loop.answer (loop : Loop) (fuel : Nat) (options : Options) (line : String)
    (session : Session) : String × String × Session :=
  if line = "" then ("", "", session)
  else
    match loop with
    | .evaluate =>
      let (outcome, session) := session.run fuel replPath line
      let (printed, session) := session.takeOutput
      (printed, (verdict options outcome).2, session)
    | .listTokens => (tokenListing line, "", session)
    | .listTrees => (treeListing line, "", session)

/-- The report on a line that is no text. -/
def invalidReport : String := "error: stream did not contain valid UTF-8\n"

/-- The exit status behind a line that is no text. -/
def invalidCode : Nat := InputFault.invalidData |> Failure.unreadable |> Failure.exitCode

/-- Answers all lines of the input. -/
def Loop.run (loop : Loop) (fuel : Nat) (options : Options) :
    Session → List (List UInt8) → Transcript
  | _, [] => { stdout := prompt }
  | session, bytes :: lines =>
    match Input.ofBytes bytes with
    | .invalid => { code := invalidCode, stdout := prompt, stderr := invalidReport }
    | .exit => { stdout := prompt }
    | .text line =>
      let (printed, complaint, session) := loop.answer fuel options line session
      (loop.run fuel options session lines).after (prompt ++ printed) complaint

/-- Bytes cut behind each newline. -/
def inputLines : List UInt8 → List (List UInt8)
  | [] => []
  | byte :: rest =>
    if byte = 0x0A then [byte] :: inputLines rest
    else
      match inputLines rest with
      | [] => [[byte]]
      | first :: others => (byte :: first) :: others

end TinyScript.Shell
