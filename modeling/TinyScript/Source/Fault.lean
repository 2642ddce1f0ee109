/-! Faults of input: why a file or a stream could not be read. -/
namespace TinyScript

inductive InputFault where
  | notFound | permissionDenied | notADirectory | isADirectory | invalidInput | invalidName
  | invalidData | unexpectedEnd | interrupted | other
deriving DecidableEq

def InputFault.message : InputFault → String
  | notFound => "entity not found"
  | permissionDenied => "permission denied"
  | notADirectory => "not a directory"
  | isADirectory => "is a directory"
  | invalidInput => "invalid input parameter"
  | invalidName => "invalid filename"
  | invalidData => "invalid data"
  | unexpectedEnd => "unexpected end of file"
  | interrupted => "operation interrupted"
  | other => "other error"

/-- What one read of a character stream gives. -/
inductive Reading where
  | character (value : Char)
  | fault (cause : InputFault)
deriving DecidableEq

namespace Reading

def character? : Reading → Option Char
  | character value => some value
  | fault _ => none

def fault? : Reading → Option InputFault
  | character _ => none
  | fault cause => some cause

end Reading

end TinyScript
