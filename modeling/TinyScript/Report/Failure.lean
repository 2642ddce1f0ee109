import TinyScript.Run.Error
import TinyScript.Source.Fault
import TinyScript.Syntax.Error
import TinyScript.Token.Error

/-! Failures of a run: text that is no program, a program that was aborted, a source that could not
be read. -/
namespace TinyScript

inductive Failure where
  | malformed (path source : String) (lexical : List LexicalError) (errors : List SyntaxError)
  | aborted (path source : String) (error : RuntimeError)
  | unreadable (fault : InputFault)

/-- Where in a source something went wrong, and what. -/
structure Location where
  path : String
  source : String
  label : String
  span : Span

structure Diagnostic where
  title : String
  text : String
  location : Option Location := none

namespace Failure

def message : Failure → String
  | malformed .. => "failed to parse source code"
  | aborted .. => "program aborted"
  | unreadable _ => "IO operation failed"

/-- The exit status of a process that ends with the failure. -/
def exitCode : Failure → Nat
  | malformed .. => 65
  | aborted .. => 70
  | unreadable _ => 74

/-- The failure without source snippets. -/
def plain : Failure → String
  | malformed _ _ lexical errors =>
    String.intercalate "\n" (lexical.map LexicalError.report ++ errors.map SyntaxError.report)
  | aborted _ _ error => error.report
  | unreadable fault => "error: " ++ fault.message

/-- A diagnostic with a place in a source. -/
def located (title path source label : String) (notes : List String) (span : Span) :
    Diagnostic :=
  { title, text := String.intercalate "\n" notes, location := some { path, source, label, span } }

/-- One diagnostic for each error. -/
def diagnostics : Failure → List Diagnostic
  | malformed path source lexical errors =>
    (lexical.map fun error =>
      located "Syntax error" path source error.cause.message error.cause.notes error.span) ++
    errors.map fun error =>
      located "Syntax error" path source error.cause.message error.notes error.token.span
  | aborted path source error =>
    [located "Runtime error" path source error.cause.message error.cause.notes error.token.span]
  | unreadable fault => [{ title := "Standard IO error", text := fault.message }]

end Failure

end TinyScript
