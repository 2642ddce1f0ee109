import TinyScript.Token.Basic

/-! Errors that abort a running program, each at the token closest to the failure. -/
namespace TinyScript

/-- Calls nest at most this deep. -/
def depthLimit : Nat := 255

inductive RuntimeCause where
  | undefinedVariable (name : String)
  | alreadyInUse (name : String)
  | operandsMustBeNumbers
  | operandsMustBeNumbersOrStrings
  | operandMustBeNumber
  | operandMustBeInteger
  | notCallable
  | arityMismatch (expected found : Nat)
  | divisionByZero
  | integerOverflow
  | invalidHexArgument
  | stackOverflow
deriving DecidableEq

namespace RuntimeCause

def message : RuntimeCause → String
  | undefinedVariable name => "Undefined variable '" ++ name ++ "'."
  | alreadyInUse name => "identifier '" ++ name ++ "' is already in use."
  | operandsMustBeNumbers => "Operands must be numbers."
  | operandsMustBeNumbersOrStrings => "Operands must be two numbers or two strings."
  | operandMustBeNumber => "Operand must be a number."
  | operandMustBeInteger => "Operand must be of type int."
  | notCallable => "Can only call functions and classes."
  | arityMismatch expected found =>
    "Expected " ++ toString expected ++ " arguments but got " ++ toString found ++ "."
  | divisionByZero => "Division by zero."
  | integerOverflow => "Integer overflow."
  | invalidHexArgument => "inHex expects integers or byte sequences."
  | stackOverflow => "Stack overflow."

/-- Further remarks, shown below a report. -/
def notes : RuntimeCause → List String
  | undefinedVariable _ => ["Declare it with `var` before use"]
  | alreadyInUse _ => ["Names can be declared only once per scope"]
  | notCallable => ["Only functions can be called"]
  | arityMismatch expected _ => ["The function takes " ++ toString expected ++ " arguments"]
  | stackOverflow => ["Calls can nest at most " ++ toString depthLimit ++ " deep"]
  | _ => []

end RuntimeCause

structure RuntimeError where
  cause : RuntimeCause
  token : Token
deriving DecidableEq

def RuntimeError.report (error : RuntimeError) : String :=
  error.cause.message ++ "\n[line " ++ toString error.token.line ++ "]"

end TinyScript
