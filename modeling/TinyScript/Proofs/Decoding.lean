import TinyScript.Proofs.FileText

/-! Files that are no texts. A character is only ever read from its own bytes, so bytes that are read
without a fault are those of a text, and running anything else stops before there is a program. -/
namespace TinyScript

namespace Utf8

/-- A lead byte carries its length in front of the bits of the code point. -/
theorem lead?_some {first : UInt8} {count value : Nat} (lead : lead? first = some (count, value)) :
    (count = 0 ∧ value < 0x80 ∧ first = UInt8.ofNat value) ∨
    (count = 1 ∧ value < 0x20 ∧ first = UInt8.ofNat (value + 0xC0)) ∨
    (count = 2 ∧ value < 0x10 ∧ first = UInt8.ofNat (value + 0xE0)) ∨
    (count = 3 ∧ value < 0x08 ∧ first = UInt8.ofNat (value + 0xF0)) := by
  have itself : first = UInt8.ofNat first.toNat := UInt8.ofNat_toNat.symm
  have small : first.toNat < 0x100 := first.toNat_lt
  generalize first.toNat = byte at itself small
  subst itself
  rw [lead?_ofNat small] at lead
  by_cases one : byte < 0x80
  · rw [if_pos one] at lead
    cases lead
    exact .inl ⟨rfl, one, rfl⟩
  rw [if_neg one] at lead
  by_cases inner : byte < 0xC0
  · rw [if_pos inner] at lead
    cases lead
  rw [if_neg inner] at lead
  by_cases two : byte < 0xE0
  · rw [if_pos two] at lead
    cases lead
    exact .inr (.inl ⟨rfl, by omega, congrArg UInt8.ofNat (by omega)⟩)
  rw [if_neg two] at lead
  by_cases three : byte < 0xF0
  · rw [if_pos three] at lead
    cases lead
    exact .inr (.inr (.inl ⟨rfl, by omega, congrArg UInt8.ofNat (by omega)⟩))
  rw [if_neg three] at lead
  by_cases four : byte < 0xF8
  · rw [if_pos four] at lead
    cases lead
    exact .inr (.inr (.inr ⟨rfl, by omega, congrArg UInt8.ofNat (by omega)⟩))
  · rw [if_neg four] at lead
    cases lead

/-- The value of a tail, six bits after another. -/
def tailValue (value : Nat) (tail : List Nat) : Nat :=
  tail.foldl (fun value bits => value * 0x40 + bits) value

/-- A tail that was read is made of bytes with six bits each, and they add up to its value. -/
theorem readTail_ok {count value result : Nat} {bytes rest : List UInt8}
    (found : readTail count value bytes = (.ok result, rest)) :
    ∃ tail : List Nat, tail.length = count ∧ (∀ bits ∈ tail, bits < 0x40) ∧
      bytes = tail.map (fun bits => UInt8.ofNat (bits + 0x80)) ++ rest ∧
      result = tailValue value tail := by
  induction count generalizing value bytes with
  | zero =>
    cases found
    exact ⟨[], rfl, by simp, rfl, rfl⟩
  | succ count ih =>
    cases bytes with
    | nil => cases found
    | cons byte bytes =>
      rw [readTail] at found
      split at found
      · next inside =>
        rw [UInt8.le_iff_toNat_le, UInt8.lt_iff_toNat_lt] at inside
        have range : 0x80 ≤ byte.toNat ∧ byte.toNat < 0xC0 := inside
        have low : byte.toNat % 0x40 + 0x80 = byte.toNat := by omega
        have same : byte = UInt8.ofNat (byte.toNat % 0x40 + 0x80) := by
          rw [low, UInt8.ofNat_toNat]
        obtain ⟨tail, length, small, shape, total⟩ := ih found
        refine ⟨byte.toNat % 0x40 :: tail, congrArg (· + 1) length, ?_, ?_, total⟩
        · exact List.forall_mem_cons.2 ⟨Nat.mod_lt _ (by decide), small⟩
        · rw [List.map_cons, List.cons_append, ← same, ← shape]
      · cases found

theorem character_ok {count value : Nat} {c : Char} (found : character count value = .character c) :
    least count ≤ value ∧ value < 0x110000 ∧ c.toNat = value := by
  unfold character at found
  split at found
  · next fits =>
    obtain ⟨shortest, valid⟩ := fits
    cases found
    refine ⟨shortest, ?_, by rw [Char.toNat_ofNat, if_pos valid]⟩
    unfold Nat.isValidChar at valid
    omega
  · cases found

/-- A character is read from the bytes that are written for it, and from no others. -/
theorem read_character {first : UInt8} {bytes rest : List UInt8} {c : Char}
    (found : read first bytes = (.character c, rest)) :
    first :: bytes = String.utf8EncodeChar c ++ rest := by
  unfold read at found
  split at found
  · cases found
  next count value lead =>
  split at found
  case h_2 => cases found
  next total behind tailRead =>
  obtain ⟨shown, rfl⟩ := Prod.mk.inj found
  obtain ⟨shortest, bound, code⟩ := character_ok shown
  obtain ⟨tail, length, small, shape, sum⟩ := readTail_ok tailRead
  have code : c.val.toNat = tailValue value tail := code.trans sum
  rw [sum] at shortest bound
  subst shape
  -- One case for each number of bytes; the shortest form rules out all branches but its own.
  rcases lead?_some lead with ⟨rfl, low, rfl⟩ | ⟨rfl, low, rfl⟩ | ⟨rfl, low, rfl⟩ | ⟨rfl, low, rfl⟩
  · obtain rfl := List.eq_nil_of_length_eq_zero length
    simp only [tailValue, List.foldl_nil] at code
    simp only [String.utf8EncodeChar, code]
    rw [if_pos (by omega)]
    rfl
  · obtain ⟨a, rfl⟩ := List.length_eq_one_iff.1 length
    have ha : a < 0x40 := by simpa using small
    simp only [tailValue, List.foldl_cons, List.foldl_nil, least] at code shortest
    simp only [String.utf8EncodeChar, code]
    rw [if_neg (by omega), if_pos (by omega)]
    have lead : (value * 64 + a) / 64 % 32 = value := by omega
    have last : (value * 64 + a) % 64 = a := by omega
    rw [lead, last]
    rfl
  · obtain ⟨a, b, rfl⟩ := List.length_eq_two.1 length
    obtain ⟨ha, hb⟩ : a < 0x40 ∧ b < 0x40 := by simpa using small
    simp only [tailValue, List.foldl_cons, List.foldl_nil, least] at code shortest
    simp only [String.utf8EncodeChar, code]
    rw [if_neg (by omega), if_neg (by omega), if_pos (by omega)]
    have lead : ((value * 64 + a) * 64 + b) / 4096 % 16 = value := by omega
    have next : ((value * 64 + a) * 64 + b) / 64 % 64 = a := by omega
    have last : ((value * 64 + a) * 64 + b) % 64 = b := by omega
    rw [lead, next, last]
    rfl
  · obtain ⟨a, b, d, rfl⟩ := List.length_eq_three.1 length
    obtain ⟨ha, hb, hd⟩ : a < 0x40 ∧ b < 0x40 ∧ d < 0x40 := by simpa using small
    simp only [tailValue, List.foldl_cons, List.foldl_nil, least] at code shortest bound
    simp only [String.utf8EncodeChar, code]
    rw [if_neg (by omega), if_neg (by omega), if_neg (by omega)]
    have lead : (((value * 64 + a) * 64 + b) * 64 + d) / 262144 % 8 = value := by omega
    have next : (((value * 64 + a) * 64 + b) * 64 + d) / 4096 % 64 = a := by omega
    have third : (((value * 64 + a) * 64 + b) * 64 + d) / 64 % 64 = b := by omega
    have last : (((value * 64 + a) * 64 + b) * 64 + d) % 64 = d := by omega
    rw [lead, next, third, last]
    rfl

/-- Bytes that are read as a text are the bytes of that text. -/
theorem bytes_of_readings {bytes : List UInt8} {text : List Char}
    (read : readings bytes = text.map .character) : bytes = text.flatMap String.utf8EncodeChar := by
  induction text generalizing bytes with
  | nil =>
    cases bytes with
    | nil => rfl
    | cons first bytes => rw [readings] at read; cases read
  | cons c text ih =>
    cases bytes with
    | nil => rw [readings] at read; cases read
    | cons first bytes =>
      rw [readings, List.map_cons, List.cons.injEq] at read
      obtain ⟨shown, others⟩ := read
      have found : Utf8.read first bytes = (.character c, (Utf8.read first bytes).2) :=
        Prod.ext shown rfl
      rw [read_character found, List.flatMap_cons, ih others]

end Utf8

namespace Reading

/-- Readings are a text, or a text up to the first fault. -/
theorem text_cases (readings : List Reading) :
    readings = (text readings).map .character ∨
      ∃ cause others, readings = (text readings).map .character ++ .fault cause :: others := by
  induction readings with
  | nil => exact .inl rfl
  | cons reading readings ih =>
    cases reading with
    | fault cause => exact .inr ⟨cause, readings, rfl⟩
    | character c =>
      rcases ih with clean | ⟨cause, others, shape⟩
      · exact .inl (congrArg (.character c :: ·) clean)
      · exact .inr ⟨cause, others, congrArg (.character c :: ·) shape⟩

/-- Whoever asks for more than the text in front of a fault comes upon a fault. -/
theorem lastFault?_take {text : List Char} {count : Nat} (further : text.length < count)
    (cause : InputFault) (others : List Reading) :
    ∃ last, lastFault? ((text.map character ++ fault cause :: others).take count) = some last := by
  obtain ⟨more, rfl⟩ : ∃ more, count = text.length + (more + 1) := ⟨count - text.length - 1, by omega⟩
  have length : text.length = (text.map character).length := (List.length_map _).symm
  have met : cause ∈ ((text.map character ++ fault cause :: others).take
      (text.length + (more + 1))).filterMap fault? := by
    rw [length, List.take_length_add_append, List.take_succ_cons, List.mem_filterMap]
    exact ⟨fault cause, List.mem_append_right _ List.mem_cons_self, rfl⟩
  apply Option.ne_none_iff_exists'.1
  intro clean
  rw [List.getLast?_eq_none_iff.1 clean] at met
  cases met

end Reading

namespace Session

/-- A file that is not the bytes of a text is not run. -/
theorem runFile_unreadable (fuel : Nat) (path : String) (session : Session) {file : File}
    (unread : ∀ bytes, file = .contents bytes → ¬ bytes.toByteArray.IsValidUTF8) :
    ∃ fault, session.runFile fuel path file = (.failed (.unreadable fault), session) := by
  have stops (readings : List Reading) (opened : file.open? = .ok readings)
      (broken : readings ≠ (Reading.text readings).map .character) :
      ∃ fault, session.runFile fuel path file = (.failed (.unreadable fault), session) := by
    obtain whole | ⟨cause, others, shape⟩ := Reading.text_cases readings
    · exact absurd whole broken
    unfold runFile
    rw [opened]
    dsimp only
    -- The scanner asks for more than the text, so it has met the fault behind it.
    have further : (Reading.text readings).length <
        (Scanner.run { rest := Reading.text readings }).2.reads := by
      rw [Scanner.run_reads]
      show _ < 2 + (Reading.text readings).length + 1
      omega
    obtain ⟨last, met⟩ := Reading.lastFault?_take further cause others
    rw [← shape] at met
    exact ⟨last, by rw [met]⟩
  cases file with
  | absent fault => exact ⟨fault, rfl⟩
  | directory => exact stops _ rfl (by decide)
  | contents bytes =>
    refine stops _ rfl fun clean => unread bytes rfl ?_
    exact .intro _ (congrArg List.toByteArray (Utf8.bytes_of_readings clean))

end Session

end TinyScript
