import TinyScript.Token.Lexeme

/-! Scanning: source text as a stream of items with lines and byte spans. Between items the
scanner skips spaces, tabs, carriage returns, newlines and `//` comments. -/
namespace TinyScript

/-- Bytes that a text takes in UTF-8. -/
def utf8Size : List Char → Nat
  | [] => 0
  | c :: rest => c.utf8Size + utf8Size rest

/-- A scanner between two characters. Its line number has 32 bits and starts over at zero. It reads
two characters ahead, so `reads` counts the characters asked of the source so far, the answers
"no more" included. -/
structure Scanner where
  rest : List Char
  offset : Nat := 0
  line : UInt32 := 1
  reads : Nat := 2
  finished : Bool := false

namespace Scanner

def isSpacing (c : Char) : Bool := c == ' ' || c == '\r' || c == '\t' || c == '\n'

mutual
/-- The longest prefix made of spacing and comments. -/
def trivia : List Char → List Char
  | [] => []
  | '/' :: '/' :: rest => '/' :: '/' :: comment rest
  | c :: rest => if isSpacing c then c :: trivia rest else []

/-- Like `trivia`, from inside a comment, which ends in front of a newline. -/
def comment : List Char → List Char
  | [] => []
  | c :: rest => if c = '\n' then c :: trivia rest else c :: comment rest
end

mutual
/-- What is skipped is a piece at the head of the text. -/
theorem trivia_isPrefix : (text : List Char) → trivia text <+: text
  | [] => List.nil_prefix
  | [c] => by by_cases spacing : isSpacing c = true <;> simp [trivia, spacing]
  | c :: d :: rest => by
    unfold trivia
    split
    · exact List.nil_prefix
    · next more same =>
      obtain ⟨rfl, rfl, rfl⟩ : c = '/' ∧ d = '/' ∧ rest = more := by simpa using same
      exact (List.prefix_cons_inj _).2 ((List.prefix_cons_inj _).2 (comment_isPrefix rest))
    · next first more _ same =>
      cases same
      split
      · exact (List.prefix_cons_inj _).2 (trivia_isPrefix (d :: rest))
      · exact List.nil_prefix

theorem comment_isPrefix : (text : List Char) → comment text <+: text
  | [] => List.nil_prefix
  | c :: rest => by
    unfold comment
    split
    · exact (List.prefix_cons_inj _).2 (trivia_isPrefix rest)
    · exact (List.prefix_cons_inj _).2 (comment_isPrefix rest)
end

/-- The scanner after it has passed `text`, the next piece of its input. -/
def pass (scanner : Scanner) (text : List Char) : Scanner :=
  { scanner with
    rest := scanner.rest.drop text.length
    offset := scanner.offset + utf8Size text
    line := scanner.line + UInt32.ofNat (text.count '\n')
    reads := scanner.reads + text.length }

/-- The item for `lexeme`, read from `start` up to where the scanner stands. -/
def item (scanner : Scanner) (start : Nat) (lexeme : Lexeme) : Item :=
  let text := String.ofList lexeme.text
  let span := ⟨start, scanner.offset⟩
  match lexeme.meaning with
  | .token kind literal => .ok { kind, lexeme := text, literal, line := scanner.line, span }
  | .malformed cause => .error { cause, lexeme := text, line := scanner.line, span }

/-- The end-of-input token at the scanner's place. -/
def endToken (scanner : Scanner) : Token :=
  { kind := .endOfInput, lexeme := "", line := scanner.line
    span := ⟨scanner.offset, scanner.offset⟩ }

/-- The next item. At the end of the input this is the end token, again and again. -/
def step (scanner : Scanner) : Item × Scanner :=
  let start := scanner.pass (trivia scanner.rest)
  match start.rest with
  | [] => (.ok start.endToken, { start with reads := start.reads + 1 })
  | first :: after =>
    let lexeme := Lexeme.ofText first after
    let stop := start.pass lexeme.text
    (stop.item start.offset lexeme, stop)

def isEnd : Item → Bool
  | .ok token => token.kind == .endOfInput
  | .error _ => false

/-- The next item of the stream, which ends after its first end token. -/
def next? (scanner : Scanner) : Option Item × Scanner :=
  if scanner.finished then (none, scanner)
  else
    let (item, after) := scanner.step
    (some item, { after with finished := isEnd item })

theorem length_pass_rest_le (scanner : Scanner) (text : List Char) :
    (scanner.pass text).rest.length ≤ scanner.rest.length := by
  simp [pass]

/-- A step inside the input passes at least one character. -/
theorem length_step_rest_lt {scanner : Scanner}
    (more : (scanner.pass (trivia scanner.rest)).rest ≠ []) :
    scanner.step.2.rest.length < scanner.rest.length := by
  have within := length_pass_rest_le scanner (trivia scanner.rest)
  unfold step
  dsimp only
  split
  · next empty => exact absurd empty more
  · next first after found =>
    obtain ⟨others, shape⟩ := Lexeme.ofText_text_cons first after
    rw [found] at within
    simp only [pass, shape, List.length_drop, List.length_cons] at within ⊢
    omega

/-- All items up to and including the first end token, and the scanner behind them. -/
def run (scanner : Scanner) : List Item × Scanner :=
  if more : (scanner.pass (trivia scanner.rest)).rest = [] then
    ([scanner.step.1], scanner.step.2)
  else
    have _shorter := length_step_rest_lt more
    let (items, last) := scanner.step.2.run
    (scanner.step.1 :: items, last)
termination_by scanner.rest.length

def ofText (text : String) : Scanner := { rest := text.toList }

end Scanner

/-- The items of a source text; the last one is its only end token. -/
def scan (source : String) : List Item := (Scanner.ofText source).run.1

def Item.token? : Item → Option Token
  | .ok token => some token
  | .error _ => none

def Item.error? : Item → Option LexicalError
  | .ok _ => none
  | .error error => some error

def scanTokens (source : String) : List Token := (scan source).filterMap Item.token?

def scanErrors (source : String) : List LexicalError := (scan source).filterMap Item.error?

end TinyScript
