import Mathlib.Data.Nat.Digits.Defs
import TinyScript.Proofs.LongestMatch
import TinyScript.Proofs.PrintStatement

/-! Bytes as hexadecimal text. Reading a text is characterised by the number its digits stand for,
and all that writes bytes as text, in tokens, trees and printed lines, is undone by it. -/
namespace TinyScript

namespace Text

/-- The digits of hexadecimal numerals, in either letter case. -/
def IsHexadecimal (c : Char) : Prop :=
  '0' ≤ c ∧ c ≤ '9' ∨ 'a' ≤ c ∧ c ≤ 'f' ∨ 'A' ≤ c ∧ c ≤ 'F'

/-- The characters of a text that are not blank. -/
def visible (text : List Char) : List Char := text.filter fun c => !isBlank c

/-- The value of a digit: its place among the digits. -/
def digitPlace (c : Char) : Nat := "0123456789abcdef".toList.idxOf c.toLower

/-- The values of digits, as they stand. -/
def digitValues (digits : List Char) : List Nat := digits.map digitPlace

theorem isHexDigit_iff {c : Char} : isHexDigit c = true ↔ IsHexadecimal c := by
  unfold isHexDigit digitValue? IsHexadecimal
  split
  · simp [*]
  · split
    · simp [*]
    · split <;> simp [*]

theorem toNat_le_iff {c d : Char} : c ≤ d ↔ c.toNat ≤ d.toNat := by
  rw [Char.le_def, UInt32.le_iff_toNat_le]
  rfl

theorem digitValue?_of_isHexDigit {c : Char} (digit : isHexDigit c = true) :
    digitValue? c = some (digitPlace c) ∧ digitPlace c < 16 := by
  have small : c.toNat < 103 := by
    simp only [isHexDigit_iff, IsHexadecimal, toNat_le_iff, Char.reduceToNat] at digit
    omega
  have each : ∀ n < 103, isHexDigit (Char.ofNat n) = true →
      digitValue? (Char.ofNat n) = some (digitPlace (Char.ofNat n)) ∧
        digitPlace (Char.ofNat n) < 16 := by decide +kernel
  have here := each c.toNat small
  rw [Char.ofNat_toNat] at here
  exact here digit

theorem toNat_toUpper (c : Char) :
    c.toUpper.toNat = if 97 ≤ c.toNat ∧ c.toNat ≤ 122 then c.toNat - 32 else c.toNat := by
  have lower : 'a'.val ≤ c.val ∧ c.val ≤ 'z'.val ↔ 97 ≤ c.toNat ∧ c.toNat ≤ 122 := by
    simp only [UInt32.le_iff_toNat_le]
    rfl
  unfold Char.toUpper
  split
  · next isLower =>
    have range := lower.1 isLower
    rw [if_pos range]
    -- The difference to the upper case is added modulo the size of a word.
    change (c.val + ('A'.val - 'a'.val)).toNat = c.toNat - 32
    rw [UInt32.toNat_add]
    change (c.toNat + 4294967264) % 4294967296 = c.toNat - 32
    omega
  · next isOther => rw [if_neg fun range => isOther (lower.2 range)]

/-- Letter case does not matter. -/
theorem digitValue?_toUpper (c : Char) : digitValue? c.toUpper = digitValue? c := by
  simp only [digitValue?, toNat_le_iff, Char.reduceToNat, toNat_toUpper]
  grind

theorem mapM_digitValue?_of_all {text : List Char} (all : ∀ c ∈ text, isHexDigit c = true) :
    text.mapM digitValue? = some (digitValues text) := by
  induction text with
  | nil => rfl
  | cons c rest ih =>
    obtain ⟨here, later⟩ := List.forall_mem_cons.1 all
    rw [List.mapM_cons, (digitValue?_of_isHexDigit here).1, ih later]
    rfl

theorem all_of_mapM_digitValue? {text : List Char} {digits : List Nat}
    (read : text.mapM digitValue? = some digits) : ∀ c ∈ text, isHexDigit c = true := by
  induction text generalizing digits with
  | nil => simp
  | cons c rest ih =>
    rw [List.mapM_cons] at read
    obtain ⟨value, found, onwards⟩ := Option.bind_eq_some_iff.1 read
    obtain ⟨values, later, _⟩ := Option.bind_eq_some_iff.1 onwards
    exact List.forall_mem_cons.2 ⟨Option.isSome_iff_exists.2 ⟨value, found⟩, ih later⟩

theorem ofDigits_reverse (base : Nat) (digits : List Nat) :
    Nat.ofDigits base digits.reverse =
      digits.foldl (fun value digit => value * base + digit) 0 := by
  rw [Nat.ofDigits_eq_foldr, List.foldr_reverse]
  simp [Nat.mul_comm, Nat.add_comm]

theorem positionalValue_eq_ofDigits (base : Nat) {digits : List Char}
    (all : ∀ c ∈ digits, isHexDigit c = true) :
    positionalValue base digits = Nat.ofDigits base (digitValues digits).reverse := by
  have same : digitValues digits = digits.map fun c => (digitValue? c).getD 0 :=
    List.map_congr_left fun c member => by
      rw [(digitValue?_of_isHexDigit (all c member)).1, Option.getD_some]
  rw [ofDigits_reverse, same, List.foldl_map, positionalValue]

/-- Two digits of base sixteen are one of base 256. The induction goes over pairs, so it needs an
even number of digits. -/
theorem foldl_pairDigits (digits : List Nat) (even : digits.length % 2 = 0)
    (small : ∀ digit ∈ digits, digit < 16) (start : Nat) :
    ((pairDigits digits).map UInt8.toNat).foldl (fun value digit => value * 256 + digit) start =
      digits.foldl (fun value digit => value * 16 + digit) start := by
  induction digits using pairDigits.induct generalizing start with
  | case1 high low rest ih =>
    have highSmall := small high (by simp)
    have lowSmall := small low (by simp)
    have byte : (UInt8.ofNat (high * 16 + low)).toNat = high * 16 + low :=
      UInt8.toNat_ofNat_of_lt' (by change high * 16 + low < 256; omega)
    have shifted : start * 256 + (high * 16 + low) = (start * 16 + high) * 16 + low := by omega
    have later : rest.length % 2 = 0 := by
      simp only [List.length_cons] at even
      omega
    simp only [pairDigits, List.map_cons, List.foldl_cons, byte, shifted]
    exact ih later (fun digit member => small digit (by simp [member])) _
  | case2 digits short =>
    rcases digits with _ | ⟨high, _ | ⟨low, rest⟩⟩
    · rfl
    · simp at even
    · exact (short high low rest rfl).elim

theorem length_pairDigits (digits : List Nat) :
    (pairDigits digits).length = digits.length / 2 := by
  induction digits using pairDigits.induct with
  | case1 high low rest ih =>
    simp only [pairDigits, List.length_cons, ih]
    omega
  | case2 digits short =>
    rcases digits with _ | ⟨high, _ | ⟨low, rest⟩⟩
    · rfl
    · simp [pairDigits]
    · exact (short high low rest rfl).elim

/-- Digits completed by a zero in front are as many as two for each byte, and stand for the same
number. -/
theorem evenDigits_cases (digits : List Nat) :
    (evenDigits digits).length = 2 * ((digits.length + 1) / 2) ∧
      (∀ digit ∈ evenDigits digits, digit ∈ digits ∨ digit = 0) ∧
      Nat.ofDigits 16 (evenDigits digits).reverse = Nat.ofDigits 16 digits.reverse := by
  unfold evenDigits
  split
  · next even => exact ⟨by omega, fun digit member => .inl member, rfl⟩
  · next odd =>
    refine ⟨by rw [List.length_cons]; omega, ?_, by simp [ofDigits_reverse]⟩
    intro digit member
    rcases List.mem_cons.1 member with zero | listed
    · exact .inr zero
    · exact .inl listed

theorem decodeBytes?_eq_some_iff {text : List Char} {bytes : List UInt8} :
    decodeBytes? text = some bytes ↔
      (∀ c ∈ visible text, isHexDigit c = true) ∧
        bytes = pairDigits (evenDigits (digitValues (visible text))) := by
  rw [decodeBytes?, Option.map_eq_some_iff, ← visible]
  constructor
  · rintro ⟨digits, read, same⟩
    have all := all_of_mapM_digitValue? read
    rw [mapM_digitValue?_of_all all] at read
    cases read
    exact ⟨all, same.symm⟩
  · rintro ⟨all, same⟩
    exact ⟨_, mapM_digitValue?_of_all all, same.symm⟩

theorem decodeBytes?_isSome_iff (text : List Char) :
    (decodeBytes? text).isSome ↔ ∀ c ∈ text, isBlank c = false → IsHexadecimal c := by
  have each : (∀ c ∈ visible text, isHexDigit c = true) ↔
      ∀ c ∈ text, isBlank c = false → IsHexadecimal c := by
    simp only [visible, List.mem_filter, Bool.not_eq_true', and_imp, isHexDigit_iff]
  rw [Option.isSome_iff_exists, ← each]
  constructor
  · rintro ⟨bytes, read⟩
    exact (decodeBytes?_eq_some_iff.1 read).1
  · intro all
    exact ⟨_, decodeBytes?_eq_some_iff.2 ⟨all, rfl⟩⟩

/-- The bytes of a text are half as many as its digits, and stand for the same number. -/
theorem value_of_decodeBytes? {text : List Char} {bytes : List UInt8}
    (read : decodeBytes? text = some bytes) :
    bytes.length = ((visible text).length + 1) / 2 ∧
      Nat.ofDigits 256 (bytes.map UInt8.toNat).reverse =
        Nat.ofDigits 16 (digitValues (visible text)).reverse := by
  obtain ⟨all, rfl⟩ := decodeBytes?_eq_some_iff.1 read
  obtain ⟨length, members, value⟩ := evenDigits_cases (digitValues (visible text))
  have small : ∀ digit ∈ evenDigits (digitValues (visible text)), digit < 16 := by
    intro digit member
    rcases members digit member with listed | rfl
    · obtain ⟨c, inside, rfl⟩ := List.mem_map.1 listed
      exact (digitValue?_of_isHexDigit (all c inside)).2
    · decide
  constructor
  · rw [length_pairDigits, length]
    simp [digitValues]
  · rw [ofDigits_reverse, foldl_pairDigits _ (by omega) small, ← ofDigits_reverse, value]

/-- Blanks and letter case do not matter. -/
theorem decodeBytes?_eq_of_toUpper {text other : List Char}
    (same : (visible other).map Char.toUpper = (visible text).map Char.toUpper) :
    decodeBytes? other = decodeBytes? text := by
  have upper (text : List Char) :
      (visible text).mapM digitValue? = ((visible text).map Char.toUpper).mapM digitValue? := by
    rw [List.mapM_map]
    exact congrArg ((visible text).mapM ·) (funext fun c => (digitValue?_toUpper c).symm)
  rw [decodeBytes?, decodeBytes?, ← visible, ← visible, upper, upper, same]

end Text

section Alone

variable {first : Char} {after : List Char}
variable (solid : Scanner.trivia (first :: after) = [])
include solid

theorem scansAlone_token {kind : TokenKind} {literal : Option Literal}
    (found : Lexeme.ofText first after = ⟨first :: after, .token kind literal⟩) :
    ∃ token, ScansAlone (String.ofList (first :: after)) (.ok token) ∧ token.kind = kind ∧
      token.lexeme = String.ofList (first :: after) ∧ token.literal = literal := by
  obtain ⟨item, alone, meaning⟩ := scansAlone_of_whole solid (by rw [found])
  rw [found] at meaning
  cases item with
  | error error => cases meaning
  | ok token =>
    cases meaning
    exact ⟨token, alone, rfl, alone.lexeme_eq, rfl⟩

theorem scansAlone_error {cause : LexicalCause}
    (found : Lexeme.ofText first after = ⟨first :: after, .malformed cause⟩) :
    ∃ error, ScansAlone (String.ofList (first :: after)) (.error error) ∧ error.cause = cause ∧
      error.lexeme = String.ofList (first :: after) := by
  obtain ⟨item, alone, meaning⟩ := scansAlone_of_whole solid (by rw [found])
  rw [found] at meaning
  cases item with
  | ok token => cases meaning
  | error error =>
    cases meaning
    exact ⟨error, alone, rfl, alone.lexeme_eq⟩

end Alone

theorem scansAlone_bytes (bytes : List UInt8) :
    ∃ token, ScansAlone (Primitive.bytes bytes).text (.ok token) ∧ token.kind = .bytes ∧
      token.lexeme = (Primitive.bytes bytes).text ∧ token.literal = some (.bytes bytes) := by
  have whole : (Primitive.bytes bytes).text =
      String.ofList ('\'' :: (Text.encodeBytes bytes ++ ['\''])) := by
    rw [← String.toList_inj]
    simp [Primitive.text, Text.hexOfBytes]
  have found : Lexeme.ofText '\'' (Text.encodeBytes bytes ++ ['\'']) =
      ⟨'\'' :: Text.encodeBytes bytes ++ ['\''], Lexeme.bytesMeaning (Text.encodeBytes bytes)⟩ :=
    Lexeme.quoted_eq (Text.quote_not_mem_encodeBytes bytes)
  rw [Lexeme.bytesMeaning, Text.decodeBytes?_encodeBytes] at found
  rw [whole]
  exact scansAlone_token (Scanner.trivia_solid rfl (by decide) _) found

/-- A single value in base sixteen is printed as a line. -/
theorem callNative_inHex {value : Value} {text : String} (written : value.hexText? = some text)
    (paren : Token) (machine : Machine) :
    callNative .inHex [value] paren machine = (.done .nil, machine.printLine text) := by
  simp only [callNative, List.mapM_cons, List.mapM_nil, written]
  change (Outcome.done Value.nil, { machine with
    output := machine.output ++ (String.join [text] ++ "\n") }) = _
  simp [Machine.printLine]

/-- Bytes are read from text as its digits say, and read back from all that they are written as. A
text is read exactly if all but its blanks are hexadecimal digits. Then the bytes are half as many
as the digits, rounded up, and stand in base 256 for the number that the digits stand for in base
sixteen; blanks and letter case do not matter. A literal's text, the line that `inHex` prints and
the scanned text of a byte string all give back the bytes they were made of. -/
theorem hex_bytes_read_and_written (text : List Char) (bytes : List UInt8) :
    ((Text.decodeBytes? text).isSome ↔
      ∀ c ∈ text, Text.isBlank c = false → Text.IsHexadecimal c) ∧
    (∀ found, Text.decodeBytes? text = some found →
      found.length = ((Text.visible text).length + 1) / 2 ∧
        Nat.ofDigits 256 (found.map UInt8.toNat).reverse =
          Nat.ofDigits 16 (Text.digitValues (Text.visible text)).reverse) ∧
    (∀ other, (Text.visible other).map Char.toUpper = (Text.visible text).map Char.toUpper →
      Text.decodeBytes? other = Text.decodeBytes? text) ∧
    Text.decodeBytes? (Literal.bytes bytes).text.toList = some bytes ∧
    (∀ paren machine, ∃ line,
      callNative .inHex [.bytes bytes] paren machine = (.done .nil, machine.printLine line) ∧
        Text.decodeBytes? line.toList = some bytes) ∧
    ∃ token, ScansAlone (Primitive.bytes bytes).text (.ok token) ∧ token.kind = .bytes ∧
      token.literal = some (.bytes bytes) := by
  have back : Text.decodeBytes? (Text.hexOfBytes bytes).toList = some bytes := by
    rw [Text.hexOfBytes, String.toList_ofList, Text.decodeBytes?_encodeBytes]
  refine ⟨Text.decodeBytes?_isSome_iff text, fun found read => Text.value_of_decodeBytes? read,
    fun other same => Text.decodeBytes?_eq_of_toUpper same, back, ?_, ?_⟩
  · intro paren machine
    exact ⟨Text.hexOfBytes bytes, callNative_inHex rfl paren machine, back⟩
  · obtain ⟨token, alone, kind, _, literal⟩ := scansAlone_bytes bytes
    exact ⟨token, alone, kind, literal⟩

private def loose : List Char := ['a', ' ', 'B', '\t', 'c']

/-- Three digits are two bytes, in another letter case and with other blanks too, and a zero byte in
front is not lost. -/
theorem loose_read_as_two_bytes :
    Text.decodeBytes? loose = some [0x0A, 0xBC] ∧
      Nat.ofDigits 256 (([0x0A, 0xBC] : List UInt8).map UInt8.toNat).reverse = 0xABC ∧
      Text.decodeBytes? ['A', 'b', '\u00A0', 'C'] = some [0x0A, 0xBC] ∧
      Text.decodeBytes? (Literal.bytes [0, 255]).text.toList = some [0, 255] := by
  have read : Text.decodeBytes? loose = some [0x0A, 0xBC] := by decide +kernel
  obtain ⟨_, value, same, literal, _⟩ := hex_bytes_read_and_written loose [0, 255]
  refine ⟨read, (value _ read).2.trans (by decide +kernel), ?_, literal⟩
  exact (same _ (by decide +kernel)).trans read

end TinyScript
