import TinyScript.Token.Basic

/-! Syntax errors: what a rule of the grammar missed, at the token it found instead. -/
namespace TinyScript

/-- Parameter and argument lists stay shorter than this. -/
def listLimit : Nat := 255

/-- Why a token sequence is no program. -/
inductive SyntaxCause where
  | expectedExpression
  | expected (what : String)
  | invalidAssignmentTarget
  | invalidIncrementTarget
  | tooManyParameters
  | tooManyArguments
deriving DecidableEq

def SyntaxCause.message : SyntaxCause → String
  | expectedExpression => "Expect expression."
  | expected what => "Expect " ++ what ++ "."
  | invalidAssignmentTarget => "Invalid assignment target."
  | invalidIncrementTarget => "Invalid increment target."
  | tooManyParameters => "Can't have more than 255 parameters."
  | tooManyArguments => "Can't have more than 255 arguments."

structure SyntaxError where
  cause : SyntaxCause
  token : Token
deriving DecidableEq

/-- The token in words, for remarks on what was found. -/
def Token.inWords (token : Token) : String :=
  match token.kind with
  | .endOfInput => "the end of input"
  | .identifier => "the identifier `" ++ token.lexeme ++ "`"
  | .number => "a number"
  | .string => "a string"
  | .bytes => "a byte string"
  | .keyword _ => "the keyword `" ++ token.lexeme ++ "`"
  | _ => "`" ++ token.lexeme ++ "`"

namespace SyntaxError

/-- Where the error is, in words. -/
def place (error : SyntaxError) : String :=
  if error.token.kind = .endOfInput then " at end" else " at '" ++ error.token.lexeme ++ "'"

def report (error : SyntaxError) : String :=
  "[line " ++ toString error.token.line ++ "] Error" ++ error.place ++ ": " ++ error.cause.message

/-- Further remarks, shown below a report. -/
def notes (error : SyntaxError) : List String :=
  match error.cause with
  | .expectedExpression | .expected _ => ["Found " ++ error.token.inWords]
  | .invalidAssignmentTarget => ["Only variables can be assigned to"]
  | .invalidIncrementTarget => ["Only variables can be incremented or decremented"]
  | .tooManyParameters | .tooManyArguments => []

end SyntaxError

end TinyScript
