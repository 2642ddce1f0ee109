import TinyScript.Report.Failure
import TinyScript.Text.Blank
import TinyScript.Text.Columns
import TinyScript.Token.Scanner

/-! Source snippets: the lines around a span, with the span marked and labelled. A span inside one
line is underlined; a longer one is framed on the left, and of its inner lines only those near
either end are shown. -/
namespace TinyScript

namespace Snippet

/-- A line of a source, its newline included. -/
structure Line where
  number : Nat
  start : Nat
  text : List Char

/-- Text cut behind each newline. -/
def splitLines : List Char → List (List Char)
  | [] => [[]]
  | c :: rest =>
    match splitLines rest with
    | [] => [[c]]
    | first :: others => if c = '\n' then [c] :: first :: others else (c :: first) :: others

/-- Lines with the given number and byte offset for the first. -/
def linesFrom (number start : Nat) : List (List Char) → List Line
  | [] => []
  | text :: others => ⟨number, start, text⟩ :: linesFrom (number + 1) (start + utf8Size text) others

def linesOf (source : String) : List Line := linesFrom 1 0 (splitLines source.toList)

/-- The last line that starts at or before an offset. -/
def lineAt (lines : List Line) (offset : Nat) : Line :=
  ((lines.filter fun line => line.start ≤ offset).getLast?).getD ⟨1, 0, []⟩

namespace Line

/-- One more than the number of characters that end at or before an offset. -/
def column (line : Line) (offset : Nat) : Nat :=
  1 + ((Text.cells line.text).filter fun cell => line.start + cell.stop ≤ offset).length

/-- The line as printed: without line ends and trailing null characters. -/
def trimmed (line : Line) : List Char :=
  (line.text.reverse.dropWhile fun c => c == '\n' || c == '\r' || c == '\x00').reverse

def cells (line : Line) : List Text.Cell := Text.cells line.trimmed

def printed (line : Line) : String := String.ofList (line.cells.flatMap Text.Cell.print)

/-- Bytes of blanks at the head of the line. -/
def indent (line : Line) : Nat := utf8Size (line.trimmed.takeWhile Text.isBlank)

end Line

/-- Carets below the bytes from `first` up to `last`, and blanks in front of them. One column
behind the end of the line can be marked, too. -/
def underline (line : Line) (first last : Nat) : String :=
  let extra : Text.Cell := ⟨'\x00', utf8Size line.trimmed, 1⟩
  String.ofList <| (line.cells ++ [extra]).flatMap fun cell =>
    if max first cell.offset < min last cell.stop then cell.fill '^'
    else if cell.offset < last then cell.fill ' '
    else []

/-- A rule below all cells in front of a byte. -/
def rule (line : Line) (before : Nat) : String :=
  String.ofList <| (line.cells.filter fun cell => cell.offset < before).flatMap
    fun cell => cell.fill '─'

/-- A number with blanks in front of it. -/
def padded (width : Nat) (text : String) : String :=
  String.ofList (List.replicate (width - text.length) ' ') ++ text

/-- A row of the snippet: what stands in the margin, the border and the rest. -/
def row (width : Nat) (margin border rest : String) : String :=
  padded width margin ++ " " ++ border ++ rest ++ "\n"

def numberedRow (width : Nat) (line : Line) (gutter : String) : String :=
  row width (toString line.number) "│" (gutter ++ " " ++ line.printed)

/-- The rows for a span inside one line. -/
def singleRows (width : Nat) (line : Line) (label : String) (span : Span) : String :=
  let first := span.start - line.start
  let last := max (span.stop - line.start) (first + 1)
  row width "" "│" "" ++ numberedRow width line "" ++
    row width "" "│" (" " ++ underline line first last ++ " " ++ label)

/-- Inner lines shown behind the first line and in front of the last one. -/
def linesBehind : Nat := 3

def linesAhead : Nat := 1

/-- The rows for the lines between the first and the last one. A single line is never left out. -/
def innerRows (width : Nat) (inner : List Line) : String :=
  let near := inner.take linesBehind
  let far := inner.drop linesBehind
  let hidden := far.take (far.length - linesAhead)
  let rows (lines : List Line) : String := String.join (lines.map (numberedRow width · " │"))
  if hidden.length ≤ 1 then rows inner
  else rows near ++ row width "" "·" " │" ++ rows (far.drop (far.length - linesAhead))

/-- The rows for the line in which a frame begins. Behind blanks alone the frame begins in front of
the line. -/
def openingRows (width : Nat) (line : Line) (start : Nat) : String :=
  if start ≤ line.indent then numberedRow width line " ╭"
  else numberedRow width line "  " ++ row width "" "│" (" ╭" ++ rule line (start + 1) ++ "^")

/-- The rows for the line in which a frame ends. -/
def closingRows (width : Nat) (line : Line) (stop : Nat) (label : String) : String :=
  numberedRow width line " │" ++ row width "" "│" (" ╰" ++ rule line stop ++ "^ " ++ label)

/-- The rows for the lines between the two ends of a span that stops above its start. Only a single
line is shown. -/
def gapRows (width : Nat) : List Line → String
  | [] => ""
  | [line] => numberedRow width line "  "
  | _ => row width "" "·" " │"

/-- The rows for a span that starts in one line and stops in another, from the upper line to the
lower one. -/
def framedRows (width : Nat) (lines : List Line) (first last : Line) (label : String)
    (span : Span) : String :=
  let opening := openingRows width first (span.start - first.start)
  let closing := closingRows width last (span.stop - last.start) label
  let between (upper lower : Line) : List Line :=
    lines.filter fun line => upper.number < line.number && line.number < lower.number
  row width "" "│" "  " ++
    if first.number < last.number then opening ++ innerRows width (between first last) ++ closing
    else closing ++ gapRows width (between last first) ++ opening

/-- A span moved inside a source of the given size. -/
def clamp (size : Nat) (span : Span) : Span := ⟨min span.start size, min span.stop size⟩

/-- The snippet for a location under a title. -/
def render (title : String) (location : Location) : String :=
  let span := clamp location.source.utf8ByteSize location.span
  let lines := linesOf location.source
  let first := lineAt lines span.start
  let last := lineAt lines span.stop
  let width := (toString (max first.number last.number)).length
  "error: " ++ title ++ "\n" ++
    row width "" "┌─" (" " ++ location.path ++ ":" ++ toString first.number ++ ":" ++
      toString (first.column span.start)) ++
    (if first.number = last.number then singleRows width first location.label span
    else framedRows width lines first last location.label span) ++ "\n"

end Snippet

end TinyScript
