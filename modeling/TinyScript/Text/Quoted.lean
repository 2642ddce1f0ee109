import TinyScript.Text.Digits
import TinyScript.Text.Unprintable

/-! Characters between single quotes. What cannot be seen alone is written by its number. -/
namespace TinyScript.Text

/-- What stands for a character between quotes. -/
def escaped (c : Char) : String :=
  match c with
  | '\n' => "\\n"
  | '\t' => "\\t"
  | '\r' => "\\r"
  | '\'' => "\\'"
  | '\\' => "\\\\"
  | '\x00' => "\\0"
  | _ =>
    if isPrintable c then String.singleton c
    else "\\u\x7b" ++ String.ofList ((hexNumeral c.toNat).map Char.toLower) ++ "\x7d"

def quoted (c : Char) : String := "'" ++ escaped c ++ "'"

end TinyScript.Text
