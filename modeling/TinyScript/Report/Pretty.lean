import TinyScript.Report.Snippet
import TinyScript.Report.Style

/-! Failures as full reports: a snippet or a title for each diagnostic, then its remarks. -/
namespace TinyScript

/-- The title of a diagnostic without a place in a source. -/
def titleText (style : Style) (title : String) : String :=
  style.bold (some "31") ++ "error" ++ style.bold none ++ ": " ++ title ++ "\n\n" ++ style.reset

def Diagnostic.render (style : Style) (diagnostic : Diagnostic) : String :=
  (match diagnostic.location with
  | some location => Snippet.render diagnostic.title location
  | none => titleText style diagnostic.title) ++
    if diagnostic.text = "" then "" else diagnostic.text ++ "\n"

/-- The failure with source snippets. -/
def Failure.pretty (style : Style) (failure : Failure) : String :=
  String.join (failure.diagnostics.map fun diagnostic => diagnostic.render style ++ "\n")

end TinyScript
