/-! Digits: reading positional numerals and writing upper-case hexadecimal ones. -/
namespace TinyScript.Text

def isDecimalDigit (c : Char) : Bool := '0' ≤ c && c ≤ '9'

/-- The value of a digit in base sixteen, in either letter case. -/
def digitValue? (c : Char) : Option Nat :=
  if '0' ≤ c ∧ c ≤ '9' then some (c.toNat - '0'.toNat)
  else if 'a' ≤ c ∧ c ≤ 'f' then some (c.toNat - 'a'.toNat + 10)
  else if 'A' ≤ c ∧ c ≤ 'F' then some (c.toNat - 'A'.toNat + 10)
  else none

def isHexDigit (c : Char) : Bool := (digitValue? c).isSome

/-- The number a digit string stands for in the given base; other characters count as zero. -/
def positionalValue (base : Nat) (digits : List Char) : Nat :=
  digits.foldl (fun value c => value * base + (digitValue? c).getD 0) 0

/-- The upper-case digit of a value below sixteen. -/
def hexDigit (value : Nat) : Char :=
  if value < 10 then Char.ofNat ('0'.toNat + value) else Char.ofNat ('A'.toNat + (value - 10))

/-- The shortest upper-case hexadecimal numeral of a number. -/
def hexNumeral (value : Nat) : List Char :=
  if value < 16 then [hexDigit value] else hexNumeral (value / 16) ++ [hexDigit (value % 16)]

/-- A hexadecimal numeral filled up with a zero to at least two digits. -/
def paddedHexNumeral (value : Nat) : List Char :=
  if value < 16 then ['0', hexDigit value] else hexNumeral value

end TinyScript.Text
