import TinyScript.Token.Basic

/-! Lexical errors: malformed source text, with its cause and its place. -/
namespace TinyScript

/-- Why a piece of source text is no token. -/
inductive LexicalCause where
  | unexpectedCharacter (found : Char)
  | unterminatedString
  | unterminatedBytes
  | invalidBytes
  | numberOutOfRange
  | missingHexDigits
deriving DecidableEq

namespace LexicalCause

def message : LexicalCause → String
  | unexpectedCharacter _ => "Unexpected character."
  | unterminatedString => "Unterminated string."
  | unterminatedBytes => "Unterminated byte string."
  | invalidBytes => "Invalid byte string."
  | numberOutOfRange => "Number literal is out of range."
  | missingHexDigits => "Expect hex digits after '0x'."

/-- Further remarks, shown below a report. -/
def notes : LexicalCause → List String
  | unexpectedCharacter found => ["found `" ++ String.singleton found ++ "`"]
  | numberOutOfRange => ["numbers must fit in 64 bits"]
  | invalidBytes => ["byte strings may only contain hex digits and whitespace"]
  | _ => []

end LexicalCause

structure LexicalError where
  cause : LexicalCause
  lexeme : String
  line : UInt32
  span : Span
deriving DecidableEq

namespace LexicalError

def report (error : LexicalError) : String :=
  "[line " ++ toString error.line ++ "] Error: " ++ error.cause.message

/-- The token that stands for the malformed text in token listings. -/
def illegalToken (error : LexicalError) : Token :=
  { kind := .illegal, lexeme := error.lexeme, line := error.line, span := error.span }

end LexicalError

/-- One item of a scan: a token or a piece of malformed text. -/
abbrev Item := Except LexicalError Token

end TinyScript
