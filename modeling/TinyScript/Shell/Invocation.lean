import TinyScript.Shell.Command
import TinyScript.Shell.Loop

/-! A whole run of the command line, as a function of everything it reads. -/
namespace TinyScript.Shell

/-- What a process can see. -/
structure Surroundings where
  arguments : List String
  input : List UInt8 := []
  directory : Directory := {}
  forceColour : Option String := none
  readings : Nat → Int64
  milliseconds : Nat := 0

/-- Colours are forced by any value but the empty one. -/
def coloured (forceColour : Option String) : Bool :=
  match forceColour with
  | some value => value ≠ ""
  | none => false

def usage : String :=
  "usage: run SCRIPTS [--pretty] [--timings] | repl [--pretty] | rlpl | rppl\n"

/-- Everything that a process with these surroundings writes, and its exit status. -/
def perform (fuel : Nat) (surroundings : Surroundings) : Transcript :=
  let session := Session.start surroundings.readings
  let options : Options := { coloured := coloured surroundings.forceColour }
  let lines := inputLines surroundings.input
  match Command.ofArguments? surroundings.arguments with
  | some (.run scripts pretty timings) =>
    runScripts fuel { options with pretty, timings } surroundings.directory
      surroundings.milliseconds session (scriptPaths scripts)
  | some (.repl pretty) => Loop.evaluate.run fuel { options with pretty } session lines
  | some .listTokens => Loop.listTokens.run fuel options session lines
  | some .listTrees => Loop.listTrees.run fuel options session lines
  | none => { code := 2, stderr := usage }

end TinyScript.Shell
