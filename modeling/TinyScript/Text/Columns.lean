import TinyScript.Text.Ranges
import TinyScript.Text.Wide
import TinyScript.Text.ZeroWidth

/-! Columns that characters take on a screen: two for wide East Asian characters and pictographs,
none for control characters and combining marks, one for nearly all others. -/
namespace TinyScript.Text

/-- A sign that is written as the three letters of a whole word, the Khmer `et cetera`. -/
def wordSign : Char := '\u17D8'

/-- Columns of a character other than a tab. -/
def columnWidth (c : Char) : Nat :=
  if inRanges zeroWidthRanges c then 0
  else if inRanges wideRanges c then 2
  else if c = wordSign then 3
  else 1

/-- Distance between tab stops. -/
def tabStop : Nat := 4

/-- A character of a line with the byte offset and the columns it takes there. -/
structure Cell where
  character : Char
  offset : Nat
  width : Nat

/-- The cells of text that goes on at the given byte offset and column. A tab reaches to the next
tab stop. -/
def cellsFrom (offset column : Nat) : List Char → List Cell
  | [] => []
  | c :: rest =>
    let width := if c = '\t' then tabStop - column % tabStop else columnWidth c
    ⟨c, offset, width⟩ :: cellsFrom (offset + c.utf8Size) (column + width) rest

/-- The cells of a line. -/
def cells (line : List Char) : List Cell := cellsFrom 0 0 line

namespace Cell

/-- The byte offset behind the cell. -/
def stop (cell : Cell) : Nat := cell.offset + cell.character.utf8Size

/-- The cell as printed, a tab as blanks. -/
def print (cell : Cell) : List Char :=
  if cell.character = '\t' then List.replicate cell.width ' ' else [cell.character]

/-- The cell filled with another character. -/
def fill (cell : Cell) (mark : Char) : List Char := List.replicate cell.width mark

end Cell

end TinyScript.Text
