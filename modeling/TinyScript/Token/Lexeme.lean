import TinyScript.Token.Error

/-! Lexemes: the longest piece of text at the head of the input that forms one item, and what it
means. Nothing here depends on where the text stands. -/
namespace TinyScript

/-- What a lexeme stands for. -/
inductive Meaning where
  | token (kind : TokenKind) (literal : Option Literal)
  | malformed (cause : LexicalCause)
deriving DecidableEq

structure Lexeme where
  text : List Char
  meaning : Meaning

namespace Lexeme

def isLetter (c : Char) : Bool :=
  ('a' ≤ c && c ≤ 'z') || ('A' ≤ c && c ≤ 'Z') || c == '_'

def isWordCharacter (c : Char) : Bool := isLetter c || Text.isDecimalDigit c

/-- Characters that form a token on their own, whatever follows. -/
def single? : Char → Option TokenKind
  | '(' => some .leftParen
  | ')' => some .rightParen
  | '\x7b' => some .leftBrace
  | '\x7d' => some .rightBrace
  | '[' => some .leftBracket
  | ']' => some .rightBracket
  | ',' => some .comma
  | '.' => some .dot
  | ';' => some .semicolon
  | '*' => some .star
  | '/' => some .slash
  | _ => none

/-- Characters that form a longer token with one certain successor: that successor, the kind of
the pair and the kind of the character alone. -/
def pair? : Char → Option (Char × TokenKind × TokenKind)
  | '-' => some ('-', .decrement, .minus)
  | '+' => some ('+', .increment, .plus)
  | '!' => some ('=', .notEqual, .bang)
  | '=' => some ('=', .equal, .assign)
  | '<' => some ('=', .lessEqual, .less)
  | '>' => some ('=', .greaterEqual, .greater)
  | _ => none

/-- The meaning of a digit string in the given base. -/
def number (base : Nat) (digits : List Char) : Meaning :=
  if Text.positionalValue base digits ≤ largestInt then
    .token .number (some (.int (Int64.ofNat (Text.positionalValue base digits))))
  else .malformed .numberOutOfRange

/-- The numeral that starts with the digit `first`. -/
def numeral (first : Char) (after : List Char) : Lexeme :=
  if first = '0' ∧ after.head? = some 'x' then
    let digits := after.tail.takeWhile Text.isHexDigit
    { text := '0' :: 'x' :: digits
      meaning := if digits = [] then .malformed .missingHexDigits else number 16 digits }
  else
    let digits := first :: after.takeWhile Text.isDecimalDigit
    { text := digits, meaning := number 10 digits }

/-- The word that starts with the letter `first`. -/
def word (first : Char) (after : List Char) : Lexeme :=
  let letters := first :: after.takeWhile isWordCharacter
  { text := letters
    meaning :=
      match Keyword.ofText? (String.ofList letters) with
      | some keyword => .token (.keyword keyword) none
      | none => .token .identifier none }

/-- Text from an opening quote up to the next quote. A missing closing quote takes all the rest. -/
def quoted (quote : Char) (after : List Char) (unclosed : LexicalCause)
    (meaning : List Char → Meaning) : Lexeme :=
  let body := after.takeWhile (· ≠ quote)
  if body.length = after.length then { text := quote :: body, meaning := .malformed unclosed }
  else { text := quote :: body ++ [quote], meaning := meaning body }

def stringMeaning (body : List Char) : Meaning :=
  .token .string (some (.string (String.ofList body)))

def bytesMeaning (body : List Char) : Meaning :=
  match Text.decodeBytes? body with
  | some bytes => .token .bytes (some (.bytes bytes))
  | none => .malformed .invalidBytes

/-- The lexeme at the head of the text `first :: after`. -/
def ofText (first : Char) (after : List Char) : Lexeme :=
  match single? first, pair? first with
  | some kind, _ => { text := [first], meaning := .token kind none }
  | none, some (second, double, alone) =>
    if after.head? = some second then
      { text := [first, second], meaning := .token double none }
    else { text := [first], meaning := .token alone none }
  | none, none =>
    if first = '"' then quoted '"' after .unterminatedString stringMeaning
    else if first = '\'' then quoted '\'' after .unterminatedBytes bytesMeaning
    else if Text.isDecimalDigit first then numeral first after
    else if isLetter first then word first after
    else { text := [first], meaning := .malformed (.unexpectedCharacter first) }

/-- A lexeme starts with the first character of the text. -/
theorem ofText_text_cons (first : Char) (after : List Char) :
    ∃ more, (ofText first after).text = first :: more := by
  unfold ofText
  split
  · exact ⟨[], rfl⟩
  · split
    · exact ⟨_, rfl⟩
    · exact ⟨[], rfl⟩
  · split
    · next opening => subst opening; unfold quoted; dsimp only; split <;> exact ⟨_, rfl⟩
    split
    · next opening => subst opening; unfold quoted; dsimp only; split <;> exact ⟨_, rfl⟩
    split
    · unfold numeral
      split
      · next hex => obtain ⟨rfl, _⟩ := hex; exact ⟨_, rfl⟩
      · exact ⟨_, rfl⟩
    split
    · exact ⟨_, rfl⟩
    · exact ⟨[], rfl⟩

/-- The text in front of a closing quote goes on with that quote. -/
theorem takeWhile_quote_isPrefix {quote : Char} {after : List Char}
    (closed : (after.takeWhile (· ≠ quote)).length ≠ after.length) :
    after.takeWhile (· ≠ quote) ++ [quote] <+: after := by
  induction after with
  | nil => simp at closed
  | cons c rest ih =>
    by_cases stops : c = quote
    · subst stops; simp
    · simp only [ne_eq, decide_not, List.takeWhile_cons, stops, decide_false, Bool.not_false,
        ↓reduceIte, List.length_cons, Nat.add_right_cancel_iff, List.cons_append] at closed ih ⊢
      exact (List.prefix_cons_inj c).2 (ih closed)

theorem quoted_text_isPrefix (quote : Char) (after : List Char) (unclosed : LexicalCause)
    (meaning : List Char → Meaning) :
    (quoted quote after unclosed meaning).text <+: quote :: after := by
  unfold quoted
  dsimp only
  split
  · exact (List.prefix_cons_inj quote).2 (List.takeWhile_prefix _)
  · next closed => exact (List.prefix_cons_inj quote).2 (takeWhile_quote_isPrefix closed)

theorem numeral_text_isPrefix (first : Char) (after : List Char) :
    (numeral first after).text <+: first :: after := by
  unfold numeral
  split
  · next hex =>
    obtain ⟨rfl, marked⟩ := hex
    cases after with
    | nil => simp at marked
    | cons mark after =>
      obtain rfl : mark = 'x' := by simpa using marked
      exact (List.prefix_cons_inj '0').2
        ((List.prefix_cons_inj 'x').2 (List.takeWhile_prefix _))
  · exact (List.prefix_cons_inj first).2 (List.takeWhile_prefix _)

/-- A lexeme is a piece at the head of the text. -/
theorem ofText_text_isPrefix (first : Char) (after : List Char) :
    (ofText first after).text <+: first :: after := by
  have alone : [first] <+: first :: after := by simp
  unfold ofText
  split
  · exact alone
  · split
    · next follows =>
      cases after with
      | nil => simp at follows
      | cons c after =>
        obtain rfl : c = _ := by simpa using follows
        simp
    · exact alone
  · split
    · next opening => subst opening; exact quoted_text_isPrefix _ _ _ _
    split
    · next opening => subst opening; exact quoted_text_isPrefix _ _ _ _
    split
    · exact numeral_text_isPrefix first after
    split
    · exact (List.prefix_cons_inj first).2 (List.takeWhile_prefix _)
    · exact alone

end Lexeme

end TinyScript
