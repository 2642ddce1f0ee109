import TinyScript.Text.Blank
import TinyScript.Text.Digits

/-! Byte sequences as hexadecimal text. Writing gives two upper-case digits a byte; reading takes
either letter case, skips blanks and completes an odd digit count by a leading zero. -/
namespace TinyScript.Text

def byteDigits (byte : UInt8) : List Char :=
  [hexDigit (byte.toNat / 16), hexDigit (byte.toNat % 16)]

def encodeBytes (bytes : List UInt8) : List Char := bytes.flatMap byteDigits

def hexOfBytes (bytes : List UInt8) : String := String.ofList (encodeBytes bytes)

/-- Digit values grouped two by two, the first of a pair being the high one. -/
def pairDigits : List Nat → List UInt8
  | high :: low :: rest => UInt8.ofNat (high * 16 + low) :: pairDigits rest
  | _ => []

/-- Digit values completed to an even count. -/
def evenDigits (digits : List Nat) : List Nat :=
  if digits.length % 2 = 0 then digits else 0 :: digits

/-- The bytes a text spells, or `none` if a character is neither blank nor a digit. -/
def decodeBytes? (text : List Char) : Option (List UInt8) :=
  ((text.filter fun c => !isBlank c).mapM digitValue?).map fun digits =>
    pairDigits (evenDigits digits)

end TinyScript.Text
