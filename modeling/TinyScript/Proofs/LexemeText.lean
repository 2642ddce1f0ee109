import TinyScript.Proofs.Scans

/-! The texts that tokens are read from: words, numerals, quoted texts and fixed spellings, each in
front of any text that does not go on with it. -/
namespace TinyScript

/-- The text does not go on with a word or a numeral. -/
def Breaks : List Char → Prop
  | [] => True
  | c :: _ => Lexeme.isWordCharacter c = false

theorem takeWhile_eq_of_breaks {wanted : Char → Bool} {front rest : List Char}
    (inside : ∀ c ∈ front, wanted c = true)
    (within : ∀ c, wanted c = true → Lexeme.isWordCharacter c = true) (breaks : Breaks rest) :
    (front ++ rest).takeWhile wanted = front := by
  rw [List.takeWhile_append_of_pos inside]
  cases rest with
  | nil => simp
  | cons c after =>
    have stops : wanted c = false := by
      rw [Bool.eq_false_iff]
      intro goesOn
      simp [Breaks, within c goesOn] at breaks
    simp [stops]

namespace Scanner

theorem trivia_solid {c : Char} (solid : isSpacing c = false) (noSlash : c ≠ '/')
    (after : List Char) : trivia (c :: after) = [] := by
  rw [trivia]
  · simp [solid]
  · rintro more rfl
    exact absurd rfl noSlash

/-- Letters and digits are neither spacing nor slashes. -/
theorem trivia_wordCharacter {c : Char} (isWord : Lexeme.isWordCharacter c = true)
    (after : List Char) : trivia (c :: after) = [] := by
  refine trivia_solid ?_ ?_ after
  · rw [Bool.eq_false_iff]
    intro spacing
    simp only [isSpacing, Bool.or_eq_true, beq_iff_eq] at spacing
    rcases spacing with ((rfl | rfl) | rfl) | rfl <;> exact absurd isWord (by decide)
  · rintro rfl
    exact absurd isWord (by decide)

end Scanner

namespace Lexeme

/-- Neither letters nor digits stand for themselves. -/
theorem plain_of_wordCharacter {c : Char} (isWord : isWordCharacter c = true) :
    single? c = none ∧ pair? c = none ∧ c ≠ '"' ∧ c ≠ '\'' := by
  refine ⟨?_, ?_, ?_, ?_⟩
  · unfold single?
    split
    case h_12 => rfl
    all_goals exact absurd isWord (by decide)
  · unfold pair?
    split
    case h_7 => rfl
    all_goals exact absurd isWord (by decide)
  · rintro rfl
    exact absurd isWord (by decide)
  · rintro rfl
    exact absurd isWord (by decide)

theorem not_digit_of_letter {c : Char} (letter : isLetter c = true) :
    Text.isDecimalDigit c = false := by
  rw [Bool.eq_false_iff]
  intro digit
  simp only [isLetter, Text.isDecimalDigit, Bool.or_eq_true, Bool.and_eq_true, decide_eq_true_eq,
    beq_iff_eq, Char.le_def, UInt32.le_iff_toNat_le] at letter digit
  change 48 ≤ c.val.toNat ∧ c.val.toNat ≤ 57 at digit
  rcases letter with (lower | upper) | rfl
  · change 97 ≤ c.val.toNat ∧ c.val.toNat ≤ 122 at lower
    omega
  · change 65 ≤ c.val.toNat ∧ c.val.toNat ≤ 90 at upper
    omega
  · exact absurd digit.2 (by decide)

/-- The kind of a word. -/
def wordKind (word : String) : TokenKind :=
  match Keyword.ofText? word with
  | some keyword => .keyword keyword
  | none => .identifier

theorem wordCharacter_of_letter {c : Char} (letter : isLetter c = true) :
    isWordCharacter c = true := by
  simp [isWordCharacter, letter]

theorem ofText_word {first : Char} {others rest : List Char} (letter : isLetter first = true)
    (inside : ∀ c ∈ others, isWordCharacter c = true) (breaks : Breaks rest) :
    ofText first (others ++ rest) =
      ⟨first :: others, .token (wordKind (String.ofList (first :: others))) none⟩ := by
  obtain ⟨single, pair, noQuote, noTick⟩ := plain_of_wordCharacter (wordCharacter_of_letter letter)
  have whole : (others ++ rest).takeWhile isWordCharacter = others :=
    takeWhile_eq_of_breaks inside (fun _ => id) breaks
  simp only [ofText, single, pair, noQuote, noTick, not_digit_of_letter letter, letter, word, whole,
    wordKind, ↓reduceIte, Bool.false_eq_true]
  cases Keyword.ofText? (String.ofList (first :: others)) <;> rfl

theorem wordCharacter_of_digit {c : Char} (digit : Text.isDecimalDigit c = true) :
    isWordCharacter c = true := by
  simp [isWordCharacter, digit]

theorem ofText_digit {first : Char} (digit : Text.isDecimalDigit first = true) (after : List Char) :
    ofText first after = numeral first after := by
  obtain ⟨single, pair, noQuote, noTick⟩ := plain_of_wordCharacter (wordCharacter_of_digit digit)
  simp only [ofText, single, pair, noQuote, noTick, digit, ↓reduceIte]

theorem ofText_decimal {first : Char} {others rest : List Char}
    (digit : Text.isDecimalDigit first = true)
    (inside : ∀ c ∈ others, Text.isDecimalDigit c = true) (breaks : Breaks rest) :
    ofText first (others ++ rest) = ⟨first :: others, number 10 (first :: others)⟩ := by
  have whole : (others ++ rest).takeWhile Text.isDecimalDigit = others :=
    takeWhile_eq_of_breaks inside (fun _ => wordCharacter_of_digit) breaks
  have noMark : (others ++ rest).head? ≠ some 'x' := by
    cases others with
    | nil =>
      cases rest with
      | nil => simp
      | cons c after =>
        rintro ⟨⟩
        exact absurd (show isWordCharacter 'x' = false from breaks) (by decide)
    | cons c others =>
      rintro ⟨⟩
      exact absurd (inside 'x' (by simp)) (by decide)
  have noHex : ¬(first = '0' ∧ (others ++ rest).head? = some 'x') := fun hex => noMark hex.2
  rw [ofText_digit digit, numeral, if_neg noHex, whole]

theorem quoted_eq {quote : Char} {body rest : List Char} {unclosed : LexicalCause}
    {meaning : List Char → Meaning} (inside : quote ∉ body) :
    quoted quote (body ++ quote :: rest) unclosed meaning =
      ⟨quote :: body ++ [quote], meaning body⟩ := by
  have whole : (body ++ quote :: rest).takeWhile (· ≠ quote) = body := by
    rw [List.takeWhile_append_of_pos]
    · simp
    · intro c member
      simpa using fun same : c = quote => inside (same ▸ member)
  have closed : body.length ≠ (body ++ quote :: rest).length := by simp
  simp only [quoted, whole, closed, ↓reduceIte]

end Lexeme

namespace Text

/-- The digits of a number in base ten are read back as that number. -/
theorem positionalValue_toDigits (n : Nat) : positionalValue 10 (Nat.toDigits 10 n) = n := by
  have agree (digits : List Char) (areDigits : ∀ c ∈ digits, c.isDigit = true) (value : Nat) :
      digits.foldl (fun value c => value * 10 + (digitValue? c).getD 0) value =
        Nat.ofDigitChars 10 digits value := by
    induction digits generalizing value with
    | nil => rfl
    | cons c rest ih =>
      have isDigit := areDigits c (by simp)
      have inRange : '0' ≤ c ∧ c ≤ '9' := by simpa [Char.isDigit, Char.le_def] using isDigit
      rw [List.foldl_cons, ih fun d member => areDigits d (by simp [member]),
        Nat.ofDigitChars_cons]
      simp [digitValue?, inRange, Nat.mul_comm]
  rw [positionalValue,
    agree _ fun c member => Nat.isDigit_of_mem_toDigits (by decide) (by decide) member,
    Nat.ofDigitChars_ten_toDigits]

theorem isDecimalDigit_of_mem_toDigits {c : Char} {n : Nat} (member : c ∈ Nat.toDigits 10 n) :
    isDecimalDigit c = true := by
  have isDigit := Nat.isDigit_of_mem_toDigits (by decide) (by decide) member
  simpa [isDecimalDigit, Char.isDigit, Char.le_def] using isDigit

theorem digitValue?_hexDigit {value : Nat} (small : value < 16) :
    digitValue? (hexDigit value) = some value ∧ isBlank (hexDigit value) = false := by
  revert value
  decide

/-- The values of the digits that bytes are written with. -/
def halves (bytes : List UInt8) : List Nat :=
  bytes.flatMap fun byte => [byte.toNat / 16, byte.toNat % 16]

theorem mapM_digitValue?_encodeBytes (bytes : List UInt8) :
    (encodeBytes bytes).mapM digitValue? = some (halves bytes) := by
  induction bytes with
  | nil => rfl
  | cons byte rest ih =>
    have high := (digitValue?_hexDigit (show byte.toNat / 16 < 16 by have := byte.toNat_lt; omega)).1
    have low := (digitValue?_hexDigit (show byte.toNat % 16 < 16 by omega)).1
    have shape : encodeBytes (byte :: rest) = hexDigit (byte.toNat / 16) ::
        hexDigit (byte.toNat % 16) :: encodeBytes rest := rfl
    rw [shape, List.mapM_cons, high, List.mapM_cons, low, ih]
    rfl

theorem eq_hexDigit_of_mem_encodeBytes {c : Char} {bytes : List UInt8}
    (member : c ∈ encodeBytes bytes) : ∃ value < 16, c = hexDigit value := by
  obtain ⟨byte, _, found⟩ := List.mem_flatMap.1 member
  have bound := byte.toNat_lt
  rcases List.mem_cons.1 found with rfl | found
  · exact ⟨byte.toNat / 16, by omega, rfl⟩
  · obtain rfl := List.mem_singleton.1 found
    exact ⟨byte.toNat % 16, by omega, rfl⟩

theorem pairDigits_halves (bytes : List UInt8) : pairDigits (halves bytes) = bytes := by
  induction bytes with
  | nil => rfl
  | cons byte rest ih =>
    have shape : halves (byte :: rest) = byte.toNat / 16 :: byte.toNat % 16 :: halves rest := rfl
    have whole : byte.toNat / 16 * 16 + byte.toNat % 16 = byte.toNat := by omega
    rw [shape, pairDigits, ih, whole, UInt8.ofNat_toNat]

/-- The two digits of each byte are read back as that byte. -/
theorem decodeBytes?_encodeBytes (bytes : List UInt8) :
    decodeBytes? (encodeBytes bytes) = some bytes := by
  have kept : (encodeBytes bytes).filter (fun c => !isBlank c) = encodeBytes bytes := by
    refine List.filter_eq_self.2 fun c member => ?_
    obtain ⟨value, small, rfl⟩ := eq_hexDigit_of_mem_encodeBytes member
    simp [(digitValue?_hexDigit small).2]
  have even : (halves bytes).length % 2 = 0 := by
    simp [halves, List.length_flatMap, List.map_const']
  rw [decodeBytes?, kept, mapM_digitValue?_encodeBytes, Option.map_some, evenDigits, if_pos even,
    pairDigits_halves]

theorem quote_not_mem_encodeBytes (bytes : List UInt8) : '\'' ∉ encodeBytes bytes := by
  intro member
  obtain ⟨value, small, same⟩ := eq_hexDigit_of_mem_encodeBytes member
  have found := (digitValue?_hexDigit small).1
  rw [← same] at found
  exact absurd found (by simp [digitValue?])

end Text

/-- A letter, then letters and digits. -/
def Lexeme.isWord : List Char → Bool
  | [] => false
  | first :: others => isLetter first && others.all isWordCharacter

/-- Whether the text can be a name. -/
def isNameText (text : String) : Bool :=
  Lexeme.isWord text.toList && (Keyword.ofText? text).isNone

/-- Kinds of tokens that nothing can go on with. -/
def TokenKind.isSealed : TokenKind → Bool
  | leftParen | rightParen | leftBrace | rightBrace | comma | semicolon => true
  | increment | decrement => true
  | _ => false

/-- Kinds of tokens that are written with a space behind them. -/
def TokenKind.standsApart : TokenKind → Bool
  | plus | minus | star | slash | assign => true
  | equal | notEqual | less | lessEqual | greater | greaterEqual => true
  | keyword _ => true
  | _ => false

namespace Scans

variable {rest : List Char} {tokens : List Token}

theorem word {text : String} (isWord : Lexeme.isWord text.toList = true) (breaks : Breaks rest)
    (scans : Scans rest tokens) :
    Scans (text.toList ++ rest)
      ({ kind := Lexeme.wordKind text, lexeme := text, line := 0, span := ⟨0, 0⟩ } :: tokens) := by
  cases shape : text.toList with
  | nil => simp [shape, Lexeme.isWord] at isWord
  | cons first others =>
    have whole : String.ofList (first :: others) = text := by rw [← shape, String.ofList_toList]
    obtain ⟨letter, inside⟩ :
        Lexeme.isLetter first = true ∧ ∀ c ∈ others, Lexeme.isWordCharacter c = true := by
      simpa [shape, Lexeme.isWord] using isWord
    have found := Lexeme.ofText_word letter inside breaks
    simpa only [whole, List.cons_append] using
      lexeme (Scanner.trivia_wordCharacter (Lexeme.wordCharacter_of_letter letter) _) found rfl
        scans

theorem name {text : String} (isName : isNameText text = true) (breaks : Breaks rest)
    (scans : Scans rest tokens) :
    Scans (text.toList ++ rest)
      ({ kind := .identifier, lexeme := text, line := 0, span := ⟨0, 0⟩ } :: tokens) := by
  simp only [isNameText, Bool.and_eq_true, Option.isNone_iff_eq_none] at isName
  have scanned := scans.word isName.1 breaks
  rwa [Lexeme.wordKind, isName.2] at scanned

theorem keyword (word : Keyword) (breaks : Breaks rest) (scans : Scans rest tokens) :
    Scans (word.text.toList ++ rest) (.fixed (.keyword word) :: tokens) := by
  have isWord : Lexeme.isWord word.text.toList = true := by cases word <;> decide
  have same : Keyword.ofText? word.text = some word := by cases word <;> decide
  have scanned := scans.word isWord breaks
  rwa [Lexeme.wordKind, same] at scanned

theorem numeral {n : Nat} (small : n ≤ largestInt) (breaks : Breaks rest)
    (scans : Scans rest tokens) :
    Scans ((toString n).toList ++ rest)
      ({ kind := .number, lexeme := toString n, literal := some (.int (Int64.ofNat n)), line := 0
         span := ⟨0, 0⟩ } :: tokens) := by
  have digits : (toString n).toList = Nat.toDigits 10 n := Nat.toList_repr
  cases shape : Nat.toDigits 10 n with
  | nil => exact absurd shape Nat.toDigits_ne_nil
  | cons first others =>
    have areDigits : ∀ c ∈ first :: others, Text.isDecimalDigit c = true := fun c member =>
      Text.isDecimalDigit_of_mem_toDigits (shape ▸ member)
    have value : Text.positionalValue 10 (first :: others) = n := by
      rw [← shape, Text.positionalValue_toDigits]
    have whole : String.ofList (first :: others) = toString n := by
      rw [← shape, ← digits, String.ofList_toList]
    have digit := areDigits first (by simp)
    have inside : ∀ c ∈ others, Text.isDecimalDigit c = true := fun c member =>
      areDigits c (by simp [member])
    have found := Lexeme.ofText_decimal digit inside breaks
    rw [Lexeme.number, value, if_pos small] at found
    have solid (after : List Char) : Scanner.trivia (first :: after) = [] :=
      Scanner.trivia_wordCharacter (Lexeme.wordCharacter_of_digit digit) after
    rw [digits, shape]
    simpa only [whole, List.cons_append] using lexeme (solid _) found rfl scans

theorem string {text : String} (inside : '"' ∉ text.toList) (scans : Scans rest tokens) :
    Scans ('"' :: text.toList ++ '"' :: rest)
      ({ kind := .string, lexeme := "\"" ++ text ++ "\"", literal := some (.string text), line := 0
         span := ⟨0, 0⟩ } :: tokens) := by
  have found : Lexeme.ofText '"' (text.toList ++ '"' :: rest) = _ := Lexeme.quoted_eq inside
  have whole : String.ofList ('"' :: text.toList ++ ['"']) = "\"" ++ text ++ "\"" := by
    rw [← String.toList_inj]
    simp
  have scanned := lexeme (Scanner.trivia_solid rfl (by decide) _) found (by simp) scans
  rwa [whole, String.ofList_toList] at scanned

theorem bytes (value : List UInt8) (scans : Scans rest tokens) :
    Scans ('\'' :: Text.encodeBytes value ++ '\'' :: rest)
      ({ kind := .bytes, lexeme := "'" ++ Text.hexOfBytes value ++ "'"
         literal := some (.bytes value), line := 0, span := ⟨0, 0⟩ } :: tokens) := by
  have found : Lexeme.ofText '\'' (Text.encodeBytes value ++ '\'' :: rest) = _ :=
    Lexeme.quoted_eq (Text.quote_not_mem_encodeBytes value)
  rw [Lexeme.bytesMeaning, Text.decodeBytes?_encodeBytes] at found
  have whole : String.ofList ('\'' :: Text.encodeBytes value ++ ['\'']) =
      "'" ++ Text.hexOfBytes value ++ "'" := by
    rw [← String.toList_inj]
    simp [Text.hexOfBytes]
  have scanned := lexeme (Scanner.trivia_solid rfl (by decide) _) found (by simp) scans
  rwa [whole] at scanned

/-- Tokens that nothing can go on with. -/
theorem closed (kind : TokenKind) (isSealed : kind.isSealed = true) (scans : Scans rest tokens) :
    Scans (kind.description.toList ++ rest) (.fixed kind :: tokens) := by
  cases kind with
  | keyword word => cases isSealed
  | leftParen | rightParen | leftBrace | rightBrace | comma | semicolon | increment | decrement =>
    exact lexeme (Scanner.trivia_solid rfl (by decide) _) rfl rfl scans
  | _ => cases isSealed

/-- Operators and reserved words with a space behind them. -/
theorem apart (kind : TokenKind) (isApart : kind.standsApart = true) (scans : Scans rest tokens) :
    Scans (kind.description.toList ++ ' ' :: rest) (.fixed kind :: tokens) := by
  cases kind with
  | keyword word => exact (scans.spacing rfl).keyword word rfl
  | plus | minus | star | assign | equal | notEqual | less | lessEqual | greater | greaterEqual =>
    exact lexeme (Scanner.trivia_solid rfl (by decide) _) rfl rfl (scans.spacing rfl)
  | slash => exact lexeme rfl rfl rfl (scans.spacing rfl)
  | _ => cases isApart

/-- A sign in front of anything that does not make a longer operator of it. -/
theorem sign (kind : TokenKind) (isSign : kind = .bang ∨ kind = .minus)
    (noEquals : rest.head? ≠ some '=') (noMinus : rest.head? ≠ some '-')
    (scans : Scans rest tokens) :
    Scans (kind.description.toList ++ rest) (.fixed kind :: tokens) := by
  rcases isSign with rfl | rfl
  · refine lexeme (Scanner.trivia_solid rfl (by decide) _) ?_ rfl scans
    exact if_neg noEquals
  · refine lexeme (Scanner.trivia_solid rfl (by decide) _) ?_ rfl scans
    exact if_neg noMinus

end Scans

end TinyScript
