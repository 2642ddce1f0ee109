/-! Commands: what the arguments of the command line ask for. -/
namespace TinyScript

inductive Command where
  | run (scripts : String) (pretty timings : Bool)
  | repl (pretty : Bool)
  | listTokens
  | listTrees
deriving DecidableEq

namespace Command

/-- Flags and other arguments apart. Everything behind `--` is no flag. -/
def sortArguments : List String → List String × List String
  | [] => ([], [])
  | "--" :: rest => ([], rest)
  | argument :: rest =>
    let (flags, others) := sortArguments rest
    if argument.startsWith "-" && argument ≠ "-" then (argument :: flags, others)
    else (flags, argument :: others)

/-- Whether every flag is among the known ones and none is given twice. -/
def validFlags (known flags : List String) : Bool :=
  flags.all (known.contains ·) && flags.eraseDups.length == flags.length

def ofArguments? : List String → Option Command
  | "run" :: rest =>
    match sortArguments rest with
    | (flags, [scripts]) =>
      if validFlags ["--pretty", "--timings"] flags then
        some (.run scripts (flags.contains "--pretty") (flags.contains "--timings"))
      else none
    | _ => none
  | "repl" :: rest =>
    match sortArguments rest with
    | (flags, []) =>
      if validFlags ["--pretty"] flags then some (.repl (flags.contains "--pretty")) else none
    | _ => none
  | "rlpl" :: rest => if sortArguments rest = ([], []) then some .listTokens else none
  | "rppl" :: rest => if sortArguments rest = ([], []) then some .listTrees else none
  | _ => none

end Command

end TinyScript
