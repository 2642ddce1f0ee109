import Mathlib
import TinyScript.Proofs.Yields

/-! Text that comes one character at a time. A source gives each character with its byte offset in 32
bits, and a cursor keeps two of them in view. Whether the offsets are looked up or counted on the way,
reading through the cursor gives the items of the text, as long as no offset overflows. -/
namespace TinyScript

/-- Two characters in view, their offsets, and the input behind them. -/
structure Cursor where
  position : UInt32 := 0
  nextPosition : UInt32 := 0
  current? : Option Char := none
  next? : Option Char := none
  input : List (UInt32 × Char)

namespace Cursor

/-- The characters of a text with their byte offsets. -/
def indexed (offset : Nat) : List Char → List (UInt32 × Char)
  | [] => []
  | c :: rest => (UInt32.ofNat offset, c) :: indexed (offset + c.utf8Size) rest

/-- The same from a running count of the bytes, which stands behind a character when it is given. -/
def counted (bytes : UInt32) : List Char → List (UInt32 × Char)
  | [] => []
  | c :: rest =>
    let behind := bytes + UInt32.ofNat c.utf8Size
    (behind - UInt32.ofNat c.utf8Size, c) :: counted behind rest

theorem counted_eq_indexed (text : List Char) (offset : Nat) :
    counted (UInt32.ofNat offset) text = indexed offset text := by
  induction text generalizing offset with
  | nil => rfl
  | cons c rest ih => rw [counted, indexed, UInt32.add_sub_cancel, ← UInt32.ofNat_add, ih]

theorem map_snd_indexed (offset : Nat) (text : List Char) :
    (indexed offset text).map Prod.snd = text := by
  induction text generalizing offset with
  | nil => rfl
  | cons c rest ih => rw [indexed, List.map_cons, ih]

/-- One character further. Behind the last one the offset is found from its length. -/
def advance (cursor : Cursor) : Cursor :=
  { position := cursor.nextPosition
    nextPosition :=
      match cursor.input.head? with
      | some (offset, _) => offset
      | none => cursor.nextPosition + UInt32.ofNat (utf8Size cursor.next?.toList)
    current? := cursor.next?
    next? := cursor.input.head?.map Prod.snd
    input := cursor.input.tail }

/-- The cursor at the front of an input. -/
def ofInput (input : List (UInt32 × Char)) : Cursor := ({ input } : Cursor).advance.advance

/-- The text from the cursor on. It ends where nothing is in view. -/
def text (cursor : Cursor) : List Char :=
  match cursor.current?, cursor.next? with
  | none, _ => []
  | some c, none => [c]
  | some c, some d => c :: d :: cursor.input.map Prod.snd

def pass (cursor : Cursor) : (count : Nat) → Cursor
  | 0 => cursor
  | count + 1 => cursor.advance.pass count

theorem text_advance {cursor : Cursor} {c : Char} {rest : List Char}
    (ahead : cursor.text = c :: rest) : cursor.advance.text = rest := by
  obtain ⟨position, nextPosition, current?, next?, input⟩ := cursor
  cases current? with
  | none => simp [text] at ahead
  | some first =>
    cases next? with
    | none => simp_all [text, advance]
    | some second => cases input <;> simp_all [text, advance]

theorem text_pass {cursor : Cursor} {count : Nat} (within : count ≤ cursor.text.length) :
    (cursor.pass count).text = cursor.text.drop count := by
  induction count generalizing cursor with
  | zero => rfl
  | succ count ih =>
    cases ahead : cursor.text with
    | nil => simp [ahead] at within
    | cons c rest =>
      have passed := text_advance ahead
      rw [pass, ih (by rw [passed]; simpa [ahead] using within), passed]
      rfl

/-- The cursor in a text, with `rest` to come behind `offset` bytes. -/
def within (offset : Nat) (rest : List Char) : Cursor :=
  { position := UInt32.ofNat offset
    nextPosition := UInt32.ofNat (offset + utf8Size (rest.take 1))
    current? := rest.head?
    next? := rest.tail.head?
    input := indexed (offset + utf8Size (rest.take 2)) (rest.drop 2) }

theorem text_within (offset : Nat) (rest : List Char) : (within offset rest).text = rest := by
  rcases rest with _ | ⟨_, _ | ⟨_, _⟩⟩
  · rfl
  · rfl
  · simp [within, text, map_snd_indexed]

theorem advance_within (offset : Nat) (c : Char) (rest : List Char) :
    (within offset (c :: rest)).advance = within (offset + c.utf8Size) rest := by
  rcases rest with _ | ⟨_, _ | ⟨_, _⟩⟩
  · simp [within, advance, indexed, utf8Size]
  · simp [within, advance, indexed, utf8Size, UInt32.ofNat_add, UInt32.add_assoc]
  · simp [within, advance, indexed, utf8Size, Nat.add_assoc]

theorem ofInput_indexed (text : List Char) : ofInput (indexed 0 text) = within 0 text := by
  rcases text with _ | ⟨_, _ | ⟨_, _⟩⟩
  · rfl
  · simp [ofInput, within, advance, indexed, utf8Size]
  · simp [ofInput, within, advance, indexed, utf8Size]

theorem pass_within (offset : Nat) (front behind : List Char) :
    (within offset (front ++ behind)).pass front.length = within (offset + utf8Size front) behind := by
  induction front generalizing offset with
  | nil => rfl
  | cons c front ih =>
    rw [List.cons_append, List.length_cons, pass, advance_within, ih, utf8Size, Nat.add_assoc]

end Cursor

/-- Reading through a cursor, with a count of the lines. -/
structure Reader where
  cursor : Cursor
  line : UInt32 := 1

namespace Reader

def ofInput (input : List (UInt32 × Char)) : Reader := { cursor := .ofInput input }

/-- The reader after it has passed `text`, the next piece of its input. -/
def pass (reader : Reader) (text : List Char) : Reader :=
  { cursor := reader.cursor.pass text.length, line := reader.line + UInt32.ofNat (text.count '\n') }

/-- The scanner that stands where the reader does. -/
def scanner (reader : Reader) : Scanner :=
  { rest := reader.cursor.text, offset := reader.cursor.position.toNat, line := reader.line }

/-- The next item, with the places that the cursor shows. -/
def step (reader : Reader) : Item × Reader :=
  let start := reader.pass (Scanner.trivia reader.cursor.text)
  match start.cursor.text with
  | [] => (.ok start.scanner.endToken, start)
  | first :: after =>
    let lexeme := Lexeme.ofText first after
    let stop := start.pass lexeme.text
    (stop.scanner.item start.cursor.position.toNat lexeme, stop)

theorem text_pass {reader : Reader} {text : List Char} (front : text <+: reader.cursor.text) :
    (reader.pass text).cursor.text = reader.cursor.text.drop text.length :=
  Cursor.text_pass front.length_le

theorem length_step_text_lt {reader : Reader}
    (more : (reader.pass (Scanner.trivia reader.cursor.text)).cursor.text ≠ []) :
    reader.step.2.cursor.text.length < reader.cursor.text.length := by
  have skipped := text_pass (Scanner.trivia_isPrefix reader.cursor.text)
  unfold step
  dsimp only
  split
  · next empty => exact absurd empty more
  · next first after found =>
    obtain ⟨others, shape⟩ := Lexeme.ofText_text_cons first after
    have front := Lexeme.ofText_text_isPrefix first after
    rw [← found] at front
    have shorter := congrArg List.length (found.symm.trans skipped)
    rw [text_pass front, found, shape]
    simp only [List.length_drop, List.length_cons] at shorter ⊢
    omega

/-- All items up to and including the first end token. -/
def items (reader : Reader) : List Item :=
  if more : (reader.pass (Scanner.trivia reader.cursor.text)).cursor.text = [] then [reader.step.1]
  else
    have _shorter := length_step_text_lt more
    reader.step.1 :: reader.step.2.items
termination_by reader.cursor.text.length

/-- The reader that stands where a scanner does. -/
def within (scanner : Scanner) : Reader :=
  { cursor := .within scanner.offset scanner.rest, line := scanner.line }

theorem text_within (scanner : Scanner) : (within scanner).cursor.text = scanner.rest :=
  Cursor.text_within scanner.offset scanner.rest

theorem pass_within {scanner : Scanner} {text behind : List Char}
    (shape : scanner.rest = text ++ behind) :
    (within scanner).pass text = within (scanner.pass text) := by
  have passed := Cursor.pass_within scanner.offset text behind
  rw [pass, within, within, shape, passed, Scanner.pass_rest_of_append shape]
  rfl

theorem position_within {scanner : Scanner} (small : scanner.offset < 2 ^ 32) :
    (within scanner).cursor.position.toNat = scanner.offset :=
  UInt32.toNat_ofNat_of_lt' small

theorem endToken_within {scanner : Scanner} (small : scanner.offset < 2 ^ 32) :
    (within scanner).scanner.endToken = scanner.endToken := by
  simp only [Scanner.endToken, Reader.scanner, position_within small]
  rfl

theorem item_within {scanner : Scanner} (small : scanner.offset < 2 ^ 32) (start : Nat)
    (lexeme : Lexeme) : (within scanner).scanner.item start lexeme = scanner.item start lexeme := by
  simp only [Scanner.item, Reader.scanner, position_within small]
  rfl

theorem step_within_blank {scanner : Scanner} (skipped : Scanner.trivia scanner.rest = scanner.rest)
    (small : scanner.offset + utf8Size scanner.rest < 2 ^ 32) :
    (within scanner).step.1 = .ok (scanner.pass scanner.rest).endToken := by
  have passed := pass_within (List.append_nil scanner.rest).symm
  have atEnd : (within (scanner.pass scanner.rest)).cursor.text = [] := by
    rw [text_within]
    simp [Scanner.pass]
  unfold step
  rw [text_within, skipped, passed]
  dsimp only
  split
  · rw [endToken_within small]
  · next found => simp [atEnd] at found

theorem step_within_lexeme {scanner : Scanner} {gap after : List Char} {first : Char}
    (skipped : Scanner.trivia scanner.rest = gap) (found : scanner.rest = gap ++ first :: after)
    (small : scanner.offset + utf8Size scanner.rest < 2 ^ 32) :
    let stop := (scanner.pass gap).pass (Lexeme.ofText first after).text
    (within scanner).step =
        (stop.item (scanner.pass gap).offset (Lexeme.ofText first after), within stop) ∧
      stop.offset + utf8Size stop.rest = scanner.offset + utf8Size scanner.rest := by
  intro stop
  have ahead : (scanner.pass gap).rest = first :: after := Scanner.pass_rest_of_append found
  obtain ⟨behind, shape⟩ := Lexeme.ofText_text_isPrefix first after
  have left : stop.rest = behind := Scanner.pass_rest_of_append (ahead.trans shape.symm)
  -- The bytes passed and those to come add up to the same, so that the bound holds at every offset.
  have total : stop.offset + utf8Size stop.rest = scanner.offset + utf8Size scanner.rest := by
    rw [left, found, ← shape, utf8Size_append, utf8Size_append, ← Nat.add_assoc, ← Nat.add_assoc]
    rfl
  have fits : stop.offset < 2 ^ 32 := by omega
  have startFits : (scanner.pass gap).offset < 2 ^ 32 :=
    Nat.lt_of_le_of_lt (Nat.le_add_right _ _) fits
  refine ⟨?_, total⟩
  unfold step
  rw [text_within, skipped, pass_within found]
  dsimp only
  split
  · next blank => simp [text_within, ahead] at blank
  · next same =>
    rw [text_within, ahead] at same
    obtain ⟨rfl, rfl⟩ := List.cons.inj same
    rw [pass_within (ahead.trans shape.symm), item_within fits, position_within startFits]

/-- A reader in a text gives the items that a scanner finds there. -/
theorem items_within {scanner : Scanner} {items : List Item} (yields : scanner.Yields items)
    (small : scanner.offset + utf8Size scanner.rest < 2 ^ 32) : (within scanner).items = items := by
  induction yields with
  | @blank scanner skipped =>
    have atEnd : ((within scanner).pass (Scanner.trivia (within scanner).cursor.text)).cursor.text
        = [] := by
      rw [text_within, skipped, pass_within (List.append_nil scanner.rest).symm, text_within]
      simp [Scanner.pass]
    rw [Reader.items, dif_pos atEnd, step_within_blank skipped small]
  | @lexeme scanner gap after first items skipped found later ih =>
    have more : ((within scanner).pass (Scanner.trivia (within scanner).cursor.text)).cursor.text
        ≠ [] := by
      rw [text_within, skipped, pass_within found, text_within, Scanner.pass_rest_of_append found]
      simp
    obtain ⟨step, total⟩ := step_within_lexeme skipped found small
    rw [Reader.items, dif_neg more]
    simp only [step, ih (total.symm ▸ small)]

/-- A text below four gigabytes is read in the same way whether its offsets are looked up or counted
on the way. -/
theorem items_eq_scan {source : String} (small : source.utf8ByteSize < 2 ^ 32) :
    (ofInput (Cursor.indexed 0 source.toList)).items = scan source ∧
      (ofInput (Cursor.counted 0 source.toList)).items = scan source := by
  have size : utf8Size source.toList = source.utf8ByteSize := by
    rw [← utf8ByteSize_ofList, String.ofList_toList]
  have read : (ofInput (Cursor.indexed 0 source.toList)).items = scan source := by
    have start : ofInput (Cursor.indexed 0 source.toList) = within (Scanner.ofText source) := by
      rw [ofInput, Cursor.ofInput_indexed]
      rfl
    rw [start]
    apply items_within (Scanner.run_yields _)
    simpa [Scanner.ofText, size] using small
  exact ⟨read, by rw [← read, ← Cursor.counted_eq_indexed]; rfl⟩

end Reader

end TinyScript
