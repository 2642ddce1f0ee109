import TinyScript.Proofs.Cursor
import TinyScript.Session

/-! Files as texts. Reading bytes in UTF-8 gives back the characters they stand for, and scanning reads
every one of them whatever the program looks like, so a file runs as its text does. -/
namespace TinyScript

namespace Utf8

theorem lead?_ofNat {byte : Nat} (small : byte < 0x100) :
    lead? (UInt8.ofNat byte) =
      if byte < 0x80 then some (0, byte)
      else if byte < 0xC0 then none
      else if byte < 0xE0 then some (1, byte % 0x20)
      else if byte < 0xF0 then some (2, byte % 0x10)
      else if byte < 0xF8 then some (3, byte % 0x08)
      else none := by
  simp only [lead?, UInt8.lt_iff_toNat_lt, UInt8.toNat_ofNat_of_lt' small]
  rfl

/-- A byte behind the lead byte carries six bits. -/
theorem readTail_ofNat {bits : Nat} (small : bits < 0x40) (count value : Nat) (bytes : List UInt8) :
    readTail (count + 1) value (UInt8.ofNat (bits + 0x80) :: bytes) =
      readTail count (value * 0x40 + bits) bytes := by
  have byte : (UInt8.ofNat (bits + 0x80)).toNat = bits + 0x80 :=
    UInt8.toNat_ofNat_of_lt' (by show bits + 0x80 < 0x100; omega)
  have inside : 0x80 ≤ UInt8.ofNat (bits + 0x80) ∧ UInt8.ofNat (bits + 0x80) < 0xC0 := by
    rw [UInt8.le_iff_toNat_le, UInt8.lt_iff_toNat_lt, byte]
    exact ⟨Nat.le_add_left _ _, by show bits + 0x80 < 0xC0; omega⟩
  have low : (bits + 0x80) % 0x40 = bits := by omega
  rw [readTail, if_pos inside, byte, low]

theorem character_toNat {count : Nat} {c : Char} (shortest : least count ≤ c.toNat) :
    character count c.toNat = .character c := by
  rw [character, if_pos ⟨shortest, c.valid⟩, Char.ofNat_toNat]

theorem read_of_lead {first : UInt8} {count value : Nat} {c : Char} {tail bytes : List UInt8}
    (lead : lead? first = some (count, value)) (shortest : least count ≤ c.toNat)
    (read : readTail count value tail = (.ok c.toNat, bytes)) :
    Utf8.read first tail = (.character c, bytes) := by
  rw [Utf8.read, lead]
  dsimp only
  rw [read]
  dsimp only
  rw [character_toNat shortest]

/-- Reading gives back the character that was written, and goes on behind it. -/
theorem read_encoded (c : Char) (bytes : List UInt8) :
    ∃ first tail, String.utf8EncodeChar c = first :: tail ∧
      read first (tail ++ bytes) = (.character c, bytes) := by
  have bound : c.toNat < 0x110000 := by
    have valid := c.valid
    unfold UInt32.isValidChar Nat.isValidChar at valid
    show c.val.toNat < 0x110000
    omega
  -- One case for each number of bytes; what the bits add up to is the code point again.
  by_cases one : c.toNat ≤ 0x7F
  · refine ⟨UInt8.ofNat c.toNat, [], if_pos one, ?_⟩
    have lead : lead? (UInt8.ofNat c.toNat) = some (0, c.toNat) := by
      rw [lead?_ofNat (by omega), if_pos (by omega)]
    exact read_of_lead lead (Nat.zero_le _) rfl
  by_cases two : c.toNat ≤ 0x7FF
  · refine ⟨_, _, (if_neg one).trans (if_pos two), ?_⟩
    have lead : lead? (UInt8.ofNat (c.toNat / 64 % 32 + 192)) = some (1, c.toNat / 64) := by
      grind [lead?_ofNat]
    have total : c.toNat / 64 * 64 + c.toNat % 64 = c.toNat := by omega
    apply read_of_lead lead (by simp only [least]; omega)
    rw [List.cons_append, readTail_ofNat (Nat.mod_lt _ (by decide))]
    exact congrArg (fun value => (Except.ok value, bytes)) total
  by_cases three : c.toNat ≤ 0xFFFF
  · refine ⟨_, _, (if_neg one).trans ((if_neg two).trans (if_pos three)), ?_⟩
    have lead : lead? (UInt8.ofNat (c.toNat / 4096 % 16 + 224)) = some (2, c.toNat / 4096) := by
      grind [lead?_ofNat]
    have total : (c.toNat / 4096 * 64 + c.toNat / 64 % 64) * 64 + c.toNat % 64 = c.toNat := by omega
    apply read_of_lead lead (by simp only [least]; omega)
    rw [List.cons_append, readTail_ofNat (Nat.mod_lt _ (by decide)), List.cons_append,
      readTail_ofNat (Nat.mod_lt _ (by decide))]
    exact congrArg (fun value => (Except.ok value, bytes)) total
  · refine ⟨_, _, (if_neg one).trans ((if_neg two).trans (if_neg three)), ?_⟩
    have lead : lead? (UInt8.ofNat (c.toNat / 262144 % 8 + 240)) = some (3, c.toNat / 262144) := by
      grind [lead?_ofNat]
    have total : ((c.toNat / 262144 * 64 + c.toNat / 4096 % 64) * 64 + c.toNat / 64 % 64) * 64 +
        c.toNat % 64 = c.toNat := by omega
    apply read_of_lead lead (by simp only [least]; omega)
    rw [List.cons_append, readTail_ofNat (Nat.mod_lt _ (by decide)), List.cons_append,
      readTail_ofNat (Nat.mod_lt _ (by decide)), List.cons_append,
      readTail_ofNat (Nat.mod_lt _ (by decide))]
    exact congrArg (fun value => (Except.ok value, bytes)) total

/-- The bytes of a text are read as its characters. -/
theorem readings_encoded (text : List Char) :
    readings (text.flatMap String.utf8EncodeChar) = text.map .character := by
  induction text with
  | nil => rw [List.flatMap_nil, readings, List.map_nil]
  | cons c text ih =>
    obtain ⟨first, tail, shape, found⟩ := read_encoded c (text.flatMap String.utf8EncodeChar)
    rw [List.flatMap_cons, shape, List.cons_append, readings, found]
    exact congrArg (.character c :: ·) ih

end Utf8

namespace Reading

theorem text_characters (text : List Char) : Reading.text (text.map .character) = text := by
  induction text with
  | nil => rfl
  | cons c text ih => exact congrArg (c :: ·) ih

theorem lastFault?_characters (text : List Char) :
    lastFault? (text.map .character) = none := by
  have clean : (text.map character).filterMap fault? = [] := by simp [fault?]
  rw [lastFault?, clean]
  rfl

end Reading

namespace Scanner

/-- Passing a piece of the input asks for one character more for each that it passes. -/
theorem reads_pass {scanner : Scanner} {text behind : List Char}
    (shape : scanner.rest = text ++ behind) :
    (scanner.pass text).reads + behind.length = scanner.reads + scanner.rest.length := by
  rw [shape, List.length_append, ← Nat.add_assoc]
  rfl

theorem step_reads_of_blank {scanner : Scanner} (skipped : trivia scanner.rest = scanner.rest) :
    scanner.step.2.reads = scanner.reads + scanner.rest.length + 1 := by
  have atEnd : (scanner.pass scanner.rest).rest = [] := by simp [pass]
  unfold step
  rw [skipped]
  dsimp only
  split
  · rfl
  · next found => simp [atEnd] at found

/-- A run asks for every character of the input and once more. -/
theorem run_reads (scanner : Scanner) :
    scanner.run.2.reads = scanner.reads + scanner.rest.length + 1 := by
  rcases scanner.blank_or_lexeme with skipped | ⟨first, after, found⟩
  · have atEnd : (scanner.pass (trivia scanner.rest)).rest = [] := by simp [skipped, pass]
    rw [run, dif_pos atEnd, step_reads_of_blank skipped]
  · have ahead := pass_rest_of_append found
    have more : (scanner.pass (trivia scanner.rest)).rest ≠ [] := by simp [ahead]
    have stepped := step_of_lexeme rfl found
    have shorter : ((scanner.pass (trivia scanner.rest)).pass
        (Lexeme.ofText first after).text).rest.length < scanner.rest.length := by
      simpa only [stepped] using length_step_rest_lt more
    obtain ⟨behind, shape⟩ := Lexeme.ofText_text_isPrefix first after
    -- What was asked for and what is left add up to the same behind the gap and behind the lexeme.
    have lexeme := reads_pass (ahead.trans shape.symm)
    have left := pass_rest_of_append (ahead.trans shape.symm)
    have gap := reads_pass found
    rw [run, dif_neg more]
    simp only [stepped]
    rw [run_reads, left, lexeme, ahead, gap]
termination_by scanner.rest.length

end Scanner

/-- Valid bytes are the encoded characters of the text they stand for. -/
theorem bytes_of_valid {bytes : List UInt8} (valid : bytes.toByteArray.IsValidUTF8) :
    bytes = (String.fromUTF8 bytes.toByteArray valid).toList.flatMap String.utf8EncodeChar := by
  apply List.toByteArray_inj.1
  exact (String.utf8Encode_toList (b := String.fromUTF8 bytes.toByteArray valid)).symm

namespace Session

/-- A file with the bytes of a text runs as the text does. -/
theorem runFile_encoded (fuel : Nat) (path text : String) (session : Session) :
    session.runFile fuel path (.contents (text.toList.flatMap String.utf8EncodeChar)) =
      session.run fuel path text := by
  have asked : (text.toList.map Reading.character).take (Scanner.ofText text).run.2.reads =
      text.toList.map Reading.character := by
    apply List.take_of_length_le
    rw [Scanner.run_reads, List.length_map]
    show text.toList.length ≤ 2 + text.toList.length + 1
    omega
  have scanned : Scanner.run { rest := text.toList } = (Scanner.ofText text).run := rfl
  unfold runFile
  simp only [File.open?, Utf8.readings_encoded, Reading.text_characters, scanned, asked,
    Reading.lastFault?_characters, String.ofList_toList]
  rfl

end Session

/-- Running a file is running its text, in every session and with all that is printed, declared and
reported: the reads of valid bytes are the characters of the text, and the scanner asks for all of
them. Below four gigabytes their items are the same when offsets are counted on the way. -/
theorem file_runs_as_text (fuel : Nat) (path : String) (session : Session) (bytes : List UInt8)
    (valid : bytes.toByteArray.IsValidUTF8) :
    session.runFile fuel path (.contents bytes) =
        session.run fuel path (String.fromUTF8 bytes.toByteArray valid) ∧
      (bytes.length < 2 ^ 32 →
        (Reader.ofInput (Cursor.counted 0 (Reading.text (Utf8.readings bytes)))).items =
          scan (String.fromUTF8 bytes.toByteArray valid)) := by
  have encoded := bytes_of_valid valid
  have size : (String.fromUTF8 bytes.toByteArray valid).utf8ByteSize = bytes.length :=
    List.size_toByteArray
  generalize String.fromUTF8 bytes.toByteArray valid = text at encoded size ⊢
  constructor
  · rw [encoded, Session.runFile_encoded]
  · intro small
    rw [encoded, Utf8.readings_encoded, Reading.text_characters]
    exact (Reader.items_eq_scan (size ▸ small)).2

/-- A comment with a character of two bytes, and an open quote on the next line. -/
private def unclosed : List UInt8 := [0x2F, 0x2F, 0x20, 0xC3, 0xA9, 0x0A, 0x22]

theorem unclosed_runs_as_text :
    ∃ valid : unclosed.toByteArray.IsValidUTF8,
      String.fromUTF8 unclosed.toByteArray valid = "// é\n\"" ∧
      ((Session.start fun _ => 0).runFile 1 "main" (.contents unclosed)).1 =
        .failed (.malformed "main" "// é\n\"" [⟨.unterminatedString, "\"", 2, ⟨6, 7⟩⟩] []) := by
  have same : unclosed.toByteArray = "// é\n\"".toByteArray := by decide +kernel
  have valid : unclosed.toByteArray.IsValidUTF8 := same ▸ String.isValidUTF8 "// é\n\""
  have text : String.fromUTF8 unclosed.toByteArray valid = "// é\n\"" := String.toByteArray_inj.1 same
  refine ⟨valid, text, ?_⟩
  rw [(file_runs_as_text 1 "main" _ unclosed valid).1, text]
  cbv

end TinyScript
