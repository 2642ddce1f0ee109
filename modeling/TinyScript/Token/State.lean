import TinyScript.Text.Quoted
import TinyScript.Token.Scanner

/-! The state of a scanner as text: its place and the two characters it has in view. -/
namespace TinyScript.Scanner

/-- A character in view, or the lack of one. -/
def viewText : Option Char → String
  | some c => "Some(" ++ Text.quoted c ++ ")"
  | none => "None"

def stateText (scanner : Scanner) : String :=
  "Lexer \x7b\n\tposition: " ++ toString scanner.offset ++ ",\n\tline: " ++ toString scanner.line ++
    ",\n\tch: " ++ viewText scanner.rest.head? ++ ", next_ch: " ++ viewText scanner.rest[1]? ++
    "\n\x7d"

end TinyScript.Scanner
