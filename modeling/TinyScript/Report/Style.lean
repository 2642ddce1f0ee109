/-! Text styles for terminals. -/
namespace TinyScript

/-- Escape codes for text styles, if a report is coloured at all. -/
structure Style where
  coloured : Bool

namespace Style

def escape (style : Style) (code : String) : String :=
  if style.coloured then "\x1b[" ++ code ++ "m" else ""

def reset (style : Style) : String := style.escape "0"

/-- Bold text, in a colour if one is given. -/
def bold (style : Style) (colour : Option String) : String :=
  style.reset ++ style.escape "1" ++ (colour.map style.escape).getD ""

end Style

end TinyScript
