import TinyScript.Source.Fault

/-! Characters read from bytes in UTF-8, one read after another. A read that fails has consumed the
bytes it could make sense of, and the next read goes on behind them. -/
namespace TinyScript.Utf8

/-- How many bytes follow a lead byte, and the part of the code point it carries. -/
def lead? (byte : UInt8) : Option (Nat × Nat) :=
  if byte < 0x80 then some (0, byte.toNat)
  else if byte < 0xC0 then none
  else if byte < 0xE0 then some (1, byte.toNat % 0x20)
  else if byte < 0xF0 then some (2, byte.toNat % 0x10)
  else if byte < 0xF8 then some (3, byte.toNat % 0x08)
  else none

/-- Reads the bytes behind a lead byte. A byte that cannot stand there is left unread. -/
def readTail : (count value : Nat) → List UInt8 → Except InputFault Nat × List UInt8
  | 0, value, bytes => (.ok value, bytes)
  | _ + 1, _, [] => (.error .unexpectedEnd, [])
  | count + 1, value, byte :: bytes =>
    if 0x80 ≤ byte ∧ byte < 0xC0 then readTail count (value * 0x40 + byte.toNat % 0x40) bytes
    else (.error .invalidData, byte :: bytes)

/-- The least code point that needs the given number of bytes behind its lead byte. -/
def least : Nat → Nat
  | 0 => 0
  | 1 => 0x80
  | 2 => 0x800
  | _ => 0x10000

/-- The character of a code point in its shortest form. -/
def character (count value : Nat) : Reading :=
  if least count ≤ value ∧ value.isValidChar then .character (Char.ofNat value)
  else .fault .invalidData

/-- One read: what it gives and the bytes behind it. -/
def read (first : UInt8) (bytes : List UInt8) : Reading × List UInt8 :=
  match lead? first with
  | none => (.fault .invalidData, bytes)
  | some (count, value) =>
    match readTail count value bytes with
    | (.ok value, rest) => (character count value, rest)
    | (.error fault, rest) => (.fault fault, rest)

theorem length_readTail_le (count value : Nat) (bytes : List UInt8) :
    (readTail count value bytes).2.length ≤ bytes.length := by
  induction count generalizing value bytes with
  | zero => exact Nat.le_refl _
  | succ count ih =>
    cases bytes with
    | nil => exact Nat.le_refl _
    | cons byte bytes =>
      rw [readTail]
      split
      · exact Nat.le_trans (ih _ _) (Nat.le_succ _)
      · exact Nat.le_refl _

theorem length_read_le (first : UInt8) (bytes : List UInt8) :
    (read first bytes).2.length ≤ bytes.length := by
  unfold read
  split
  · exact Nat.le_refl _
  · next count value _ =>
    have within := length_readTail_le count value bytes
    split <;> next found => rw [found] at within; exact within

/-- All reads up to the end of the bytes. -/
def readings : List UInt8 → List Reading
  | [] => []
  | first :: bytes =>
    have := length_read_le first bytes
    (read first bytes).1 :: readings (read first bytes).2
termination_by bytes => bytes.length
decreasing_by simp only [List.length_cons]; omega

/-- The text of bytes that hold nothing else. -/
def decode? (bytes : List UInt8) : Option (List Char) := (readings bytes).mapM Reading.character?

end TinyScript.Utf8
