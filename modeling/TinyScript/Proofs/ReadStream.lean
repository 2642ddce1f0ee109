import TinyScript.Proofs.Decoding

/-! Scanning from reads. The characters of a file come one read at a time, and a read that fails does
not end them: what stands behind it comes into view with the next read. Here a text is scanned by such
reads alone, with two characters in view. Wherever the first failing read falls, it is scanned as the
text in front of it, and the reads stop two further on. -/
namespace TinyScript

/-- Two characters in view, the reads to come and what is known of those that were made. -/
structure Intake where
  position : Nat := 0
  nextPosition : Nat := 0
  current? : Option Char := none
  next? : Option Char := none
  input : List Reading
  reads : Nat := 0
  /-- All characters that were read, whatever has become of them. -/
  given : List Char := []
  /-- The cause of the latest failing read. -/
  fault? : Option InputFault := none
  line : UInt32 := 1

namespace Scanner

/-- A comment is skipped up to the newline that ends it, and then what is to be skipped behind it. -/
theorem comment_eq (text : List Char) :
    comment text = text.takeWhile (· != '\n') ++ trivia (text.dropWhile (· != '\n')) := by
  induction text with
  | nil => simp [comment, trivia]
  | cons c rest ih =>
    by_cases newline : c = '\n'
    · subst newline
      have spacing : isSpacing '\n' = true := rfl
      simp [comment, trivia_spacing spacing]
    · simp [comment, newline, ih]

end Scanner

namespace Intake

/-- One character further, by one read. A read that fails shows nothing, as at the end of the input. -/
def advance (intake : Intake) : Intake :=
  let reading? := intake.input.head?
  let character? := reading?.bind Reading.character?
  { position := intake.nextPosition
    nextPosition :=
      match character? with
      | some _ => utf8Size intake.given
      | none => intake.nextPosition + utf8Size intake.next?.toList
    current? := intake.next?
    next? := character?
    input := intake.input.tail
    reads := intake.reads + 1
    given := intake.given ++ character?.toList
    fault? := (reading?.bind Reading.fault?).or intake.fault?
    line := intake.line + UInt32.ofNat (intake.current?.toList.count '\n') }

/-- Before the first item, two characters come into view. -/
def ofReadings (readings : List Reading) : Intake := ({ input := readings } : Intake).advance.advance

/-- The text from the first character in view on, up to the next failing read. -/
def text (intake : Intake) : List Char :=
  match intake.current?, intake.next? with
  | none, _ => []
  | some c, none => [c]
  | some c, some d => c :: d :: Reading.text intake.input

theorem current?_eq_head? (intake : Intake) : intake.current? = intake.text.head? := by
  unfold text
  split <;> simp_all

theorem text_of_current? {intake : Intake} {c : Char} (found : intake.current? = some c) :
    ∃ rest, intake.text = c :: rest := by
  rw [current?_eq_head?] at found
  exact List.head?_eq_some_iff.1 found

theorem text_of_ended {intake : Intake} (ended : intake.current? = none) : intake.text = [] := by
  rw [current?_eq_head?] at ended
  exact List.head?_eq_none_iff.1 ended

/-- The second character in view belongs to the text whenever the first one does. -/
theorem next?_eq_head? {intake : Intake} {c : Char} {rest : List Char}
    (ahead : intake.text = c :: rest) : intake.next? = rest.head? := by
  obtain ⟨_, _, current?, next?, _⟩ := intake
  cases current? with
  | none => cases ahead
  | some first => cases next? <;> cases ahead <;> rfl

theorem text_advance {intake : Intake} {c : Char} {rest : List Char}
    (ahead : intake.text = c :: rest) : intake.advance.text = rest := by
  obtain ⟨_, _, current?, next?, input⟩ := intake
  cases current? with
  | none => cases ahead
  | some first =>
    cases next? with
    | none =>
      cases ahead
      rfl
    | some second =>
      cases ahead
      obtain _ | ⟨_ | _, input⟩ := input <;> rfl

theorem length_text_advance_lt {intake : Intake} {c : Char} (found : intake.current? = some c) :
    intake.advance.text.length < intake.text.length := by
  obtain ⟨rest, ahead⟩ := text_of_current? found
  rw [text_advance ahead, ahead]
  exact Nat.lt_succ_self _

/-- Passes characters as long as they are wanted, and gives them. -/
def passWhile (wanted : Char → Bool) (intake : Intake) : List Char × Intake :=
  match found : intake.current? with
  | none => ([], intake)
  | some c =>
    if wanted c then
      have _shorter := length_text_advance_lt found
      let (others, after) := intake.advance.passWhile wanted
      (c :: others, after)
    else ([], intake)
termination_by intake.text.length

/-- The intake after a number of reads. -/
def pass (intake : Intake) : (count : Nat) → Intake
  | 0 => intake
  | count + 1 => intake.advance.pass count

theorem pass_add (intake : Intake) (first second : Nat) :
    intake.pass (first + second) = (intake.pass first).pass second := by
  induction first generalizing intake with
  | zero => rw [Nat.zero_add]; rfl
  | succ first ih => rw [Nat.succ_add, pass, pass, ih]

theorem text_pass (intake : Intake) (count : Nat) (within : count ≤ intake.text.length) :
    (intake.pass count).text = intake.text.drop count := by
  induction count generalizing intake with
  | zero => rfl
  | succ count ih =>
    cases ahead : intake.text with
    | nil => simp [ahead] at within
    | cons c rest =>
      have advanced := text_advance ahead
      rw [pass, ih _ (by rw [advanced]; simpa [ahead] using within), advanced, List.drop_succ_cons]

theorem passWhile_eq (wanted : Char → Bool) (intake : Intake) :
    intake.passWhile wanted =
      (intake.text.takeWhile wanted, intake.pass (intake.text.takeWhile wanted).length) := by
  fun_induction passWhile wanted intake with
  | case1 intake ended =>
    rw [text_of_ended ended]
    rfl
  | case2 intake c found isWanted _ others after passed ih =>
    obtain ⟨rest, ahead⟩ := text_of_current? found
    rw [passed, text_advance ahead] at ih
    obtain ⟨rfl, rfl⟩ := Prod.mk.inj ih
    rw [ahead, List.takeWhile_cons, if_pos isWanted]
    rfl
  | case3 intake c found unwanted =>
    obtain ⟨rest, ahead⟩ := text_of_current? found
    rw [ahead, List.takeWhile_cons, if_neg unwanted]
    rfl

/-- What has been passed lies in front of the text that is left. -/
theorem text_passWhile (wanted : Char → Bool) (intake : Intake) :
    (intake.passWhile wanted).2.text = intake.text.dropWhile wanted := by
  rw [passWhile_eq, text_pass _ _ (List.takeWhile_prefix wanted).length_le]
  calc intake.text.drop (intake.text.takeWhile wanted).length
      = (intake.text.takeWhile wanted ++ intake.text.dropWhile wanted).drop
          (intake.text.takeWhile wanted).length := by rw [List.takeWhile_append_dropWhile]
    _ = intake.text.dropWhile wanted := List.drop_left

theorem length_passWhile_lt {wanted : Char → Bool} {intake : Intake} {c : Char}
    (found : intake.current? = some c) (isWanted : wanted c = true) :
    (intake.passWhile wanted).2.text.length < intake.text.length := by
  obtain ⟨rest, ahead⟩ := text_of_current? found
  rw [text_passWhile, ahead, List.dropWhile_cons, if_pos isWanted]
  exact Nat.lt_succ_of_le (List.dropWhile_suffix wanted).length_le

/-- Passes spacing and comments. Whether a comment starts shows in the two characters in view. -/
def skip (intake : Intake) : Intake :=
  match found : intake.current? with
  | none => intake
  | some c =>
    if Scanner.isSpacing c then
      have _shorter := length_text_advance_lt found
      intake.advance.skip
    else if slashes : c = '/' ∧ intake.next? = some '/' then
      have _shorter : (intake.passWhile (· != '\n')).2.text.length < intake.text.length :=
        length_passWhile_lt found (by simp [slashes.1])
      (intake.passWhile (· != '\n')).2.skip
    else intake
termination_by intake.text.length

theorem skip_eq (intake : Intake) :
    intake.skip = intake.pass (Scanner.trivia intake.text).length := by
  fun_induction skip intake with
  | case1 intake ended =>
    rw [text_of_ended ended]
    rfl
  | case2 intake c found spacing _ ih =>
    obtain ⟨rest, ahead⟩ := text_of_current? found
    rw [ih, text_advance ahead, ahead, Scanner.trivia_spacing spacing]
    rfl
  | case3 intake c found solid slashes _ ih =>
    obtain ⟨rest, ahead⟩ := text_of_current? found
    obtain ⟨rfl, second⟩ := slashes
    rw [next?_eq_head? ahead] at second
    obtain ⟨behind, rfl⟩ := List.head?_eq_some_iff.1 second
    have passed : intake.text.takeWhile (· != '\n') =
        '/' :: '/' :: behind.takeWhile (· != '\n') := by simp [ahead]
    have left : intake.text.dropWhile (· != '\n') = behind.dropWhile (· != '\n') := by simp [ahead]
    rw [ih, text_passWhile, left, passWhile_eq, passed, ← pass_add, ahead, Scanner.trivia,
      Scanner.comment_eq]
    simp only [List.length_cons, List.length_append]
    congr 1
    omega
  | case4 intake c found solid single =>
    obtain ⟨rest, ahead⟩ := text_of_current? found
    have nothing : Scanner.trivia intake.text = [] := by
      rw [next?_eq_head? ahead] at single
      rw [ahead]
      unfold Scanner.trivia
      split <;> simp_all
    rw [nothing]
    rfl

/-- The rest of a quoted text: up to the next quote, or to where no character is in view. -/
def quoted (quote : Char) (unclosed : LexicalCause) (meaning : List Char → Meaning)
    (intake : Intake) : Lexeme × Intake :=
  let (body, after) := intake.passWhile (· ≠ quote)
  match after.current? with
  | none => ({ text := quote :: body, meaning := .malformed unclosed }, after)
  | some _ => ({ text := quote :: body ++ [quote], meaning := meaning body }, after.advance)

/-- The rest of a numeral. -/
def numeral (first : Char) (intake : Intake) : Lexeme × Intake :=
  if first = '0' ∧ intake.current? = some 'x' then
    let (digits, after) := intake.advance.passWhile Text.isHexDigit
    ({ text := '0' :: 'x' :: digits
       meaning := if digits = [] then .malformed .missingHexDigits else Lexeme.number 16 digits },
      after)
  else
    let (digits, after) := intake.passWhile Text.isDecimalDigit
    ({ text := first :: digits, meaning := Lexeme.number 10 (first :: digits) }, after)

/-- The rest of a word. -/
def word (first : Char) (intake : Intake) : Lexeme × Intake :=
  let (letters, after) := intake.passWhile Lexeme.isWordCharacter
  ({ text := first :: letters
     meaning :=
       match Keyword.ofText? (String.ofList (first :: letters)) with
       | some keyword => .token (.keyword keyword) none
       | none => .token .identifier none },
    after)

/-- The lexeme that starts with a character that has been passed. Beyond that, only the first
character in view decides what belongs to it. -/
def lexeme (first : Char) (intake : Intake) : Lexeme × Intake :=
  match Lexeme.single? first, Lexeme.pair? first with
  | some kind, _ => ({ text := [first], meaning := .token kind none }, intake)
  | none, some (second, double, alone) =>
    if intake.current? = some second then
      ({ text := [first, second], meaning := .token double none }, intake.advance)
    else ({ text := [first], meaning := .token alone none }, intake)
  | none, none =>
    if first = '"' then intake.quoted '"' .unterminatedString Lexeme.stringMeaning
    else if first = '\'' then intake.quoted '\'' .unterminatedBytes Lexeme.bytesMeaning
    else if Text.isDecimalDigit first then intake.numeral first
    else if Lexeme.isLetter first then intake.word first
    else ({ text := [first], meaning := .malformed (.unexpectedCharacter first) }, intake)

theorem quoted_eq (quote : Char) (unclosed : LexicalCause) (meaning : List Char → Meaning)
    (intake : Intake) :
    intake.quoted quote unclosed meaning =
      (Lexeme.quoted quote intake.text unclosed meaning,
        intake.pass (Lexeme.quoted quote intake.text unclosed meaning).text.tail.length) := by
  have shape := List.takeWhile_append_dropWhile (p := (· ≠ quote)) (l := intake.text)
  have left := text_passWhile (· ≠ quote) intake
  have shown := current?_eq_head? (intake.passWhile (· ≠ quote)).2
  rw [left] at shown
  unfold quoted Lexeme.quoted
  dsimp only
  rw [passWhile_eq] at shown ⊢
  dsimp only at shown ⊢
  rw [shown]
  cases behind : intake.text.dropWhile (· ≠ quote) with
  | nil =>
    rw [behind, List.append_nil] at shape
    rw [if_pos (by rw [shape])]
    rfl
  | cons closing after =>
    have fewer : (intake.text.takeWhile (· ≠ quote)).length ≠ intake.text.length := by
      intro same
      have lengths := congrArg List.length shape
      rw [behind, List.length_append, List.length_cons] at lengths
      omega
    rw [if_neg fewer]
    refine Prod.ext rfl ?_
    show (intake.pass _).pass 1 = _
    rw [← pass_add]
    simp

theorem numeral_eq (first : Char) (intake : Intake) :
    intake.numeral first =
      (Lexeme.numeral first intake.text,
        intake.pass (Lexeme.numeral first intake.text).text.tail.length) := by
  unfold numeral Lexeme.numeral
  rw [current?_eq_head?]
  split
  · next hex =>
    obtain ⟨digits, ahead⟩ := List.head?_eq_some_iff.1 hex.2
    rw [passWhile_eq, text_advance ahead, ahead]
    rfl
  · rw [passWhile_eq]
    rfl

/-- Reading on from its first character gives the lexeme at the head of the text, and passes it. -/
theorem lexeme_eq (first : Char) (intake : Intake) :
    intake.lexeme first =
      (Lexeme.ofText first intake.text,
        intake.pass (Lexeme.ofText first intake.text).text.tail.length) := by
  unfold lexeme Lexeme.ofText
  cases Lexeme.single? first with
  | some kind => rfl
  | none =>
    cases Lexeme.pair? first with
    | some pair =>
      dsimp only
      rw [current?_eq_head?]
      split <;> rfl
    | none =>
      dsimp only
      split
      · exact quoted_eq _ _ _ intake
      split
      · exact quoted_eq _ _ _ intake
      split
      · exact numeral_eq first intake
      split
      · rw [word, passWhile_eq]
        rfl
      · rfl

/-- The scanner that stands where the intake does. -/
def scanner (intake : Intake) : Scanner :=
  { rest := intake.text, offset := intake.position, line := intake.line, reads := intake.reads }

/-- The next item. At the end of the text one more read is made before there is an end token. -/
def step (intake : Intake) : Item × Intake :=
  let start := intake.skip
  match start.current? with
  | none =>
    let final :=
      { kind := .endOfInput, lexeme := "", line := start.line
        span := ⟨start.position, start.advance.position⟩ }
    (.ok final, start.advance)
  | some first =>
    let (lexeme, stop) := start.advance.lexeme first
    (stop.scanner.item start.position lexeme, stop)

/-- Either all of the text is skipped, or a lexeme starts behind what is. -/
theorem blank_or_lexeme (intake : Intake) :
    Scanner.trivia intake.text = intake.text ∨
      ∃ first after, intake.text = Scanner.trivia intake.text ++ first :: after :=
  intake.scanner.blank_or_lexeme

theorem text_skip_of_blank {intake : Intake} (skipped : Scanner.trivia intake.text = intake.text) :
    intake.skip.text = [] := by
  rw [skip_eq, skipped, text_pass _ _ (Nat.le_refl _), List.drop_length]

theorem text_skip_of_lexeme {intake : Intake} {first : Char} {after : List Char}
    (found : intake.text = Scanner.trivia intake.text ++ first :: after) :
    intake.skip.text = first :: after := by
  rw [skip_eq, text_pass _ _ (Scanner.trivia_isPrefix _).length_le]
  exact List.append_cancel_left
    ((List.prefix_iff_eq_append.1 (Scanner.trivia_isPrefix _)).trans found)

/-- A step in front of a lexeme passes what is skipped and the lexeme. -/
theorem step_of_lexeme {intake : Intake} {first : Char} {after : List Char}
    (found : intake.text = Scanner.trivia intake.text ++ first :: after) :
    let lexeme := Lexeme.ofText first after
    let stop := intake.pass ((Scanner.trivia intake.text).length + lexeme.text.length)
    intake.step = (stop.scanner.item intake.skip.position lexeme, stop) := by
  intro lexeme stop
  have ahead := text_skip_of_lexeme found
  have shown : intake.skip.current? = some first := by rw [current?_eq_head?, ahead]; rfl
  obtain ⟨others, shape⟩ := Lexeme.ofText_text_cons first after
  have passed : intake.skip.advance.pass lexeme.text.tail.length = stop := by
    show intake.skip.advance.pass (Lexeme.ofText first after).text.tail.length =
      intake.pass (_ + (Lexeme.ofText first after).text.length)
    rw [pass_add, ← skip_eq, shape]
    rfl
  unfold step
  dsimp only
  rw [shown]
  dsimp only
  rw [lexeme_eq, text_advance ahead, passed]

/-- What is skipped and the lexeme behind it lie within the text. -/
theorem length_piece_le {intake : Intake} {first : Char} {after : List Char}
    (found : intake.text = Scanner.trivia intake.text ++ first :: after) :
    (Scanner.trivia intake.text).length + (Lexeme.ofText first after).text.length ≤
      intake.text.length := by
  have whole := congrArg List.length found
  have part := (Lexeme.ofText_text_isPrefix first after).length_le
  rw [List.length_append] at whole
  omega

theorem length_step_lt {intake : Intake} (more : intake.skip.current? ≠ none) :
    intake.step.2.text.length < intake.text.length := by
  obtain skipped | ⟨first, after, found⟩ := intake.blank_or_lexeme
  · rw [current?_eq_head?, text_skip_of_blank skipped] at more
    exact absurd rfl more
  · have within := length_piece_le found
    obtain ⟨others, shape⟩ := Lexeme.ofText_text_cons first after
    rw [step_of_lexeme found, text_pass _ _ within, List.length_drop]
    simp only [shape, List.length_cons] at within ⊢
    omega

/-- All items up to and including the end token, by which the reads have stopped. -/
def run (intake : Intake) : List Item × Intake :=
  if more : intake.skip.current? = none then ([intake.step.1], intake.step.2)
  else
    have _shorter := length_step_lt more
    let (items, last) := intake.step.2.run
    (intake.step.1 :: items, last)
termination_by intake.text.length

/-- The intake stands in a row of reads: what it knows of those that were made is true, and its places
count the bytes of the characters read. -/
structure Follows (readings : List Reading) (intake : Intake) : Prop where
  input : intake.input = readings.drop intake.reads
  given : intake.given = (readings.take intake.reads).filterMap Reading.character?
  fault : intake.fault? = Reading.lastFault? (readings.take intake.reads)
  nextPosition : intake.nextPosition = intake.position + utf8Size intake.current?.toList
  bytes : utf8Size intake.given = intake.nextPosition + utf8Size intake.next?.toList

namespace Follows

variable {readings : List Reading} {intake : Intake}

theorem start (readings : List Reading) : Follows readings { input := readings } :=
  ⟨rfl, rfl, rfl, rfl, rfl⟩

theorem advance (follows : Follows readings intake) : Follows readings intake.advance := by
  have head : intake.input.head? = readings[intake.reads]? := by
    rw [follows.input, List.head?_drop]
  refine ⟨?_, ?_, ?_, ?_, ?_⟩
  · show intake.input.tail = readings.drop (intake.reads + 1)
    rw [follows.input, List.tail_drop]
  · show intake.given ++ (intake.input.head?.bind Reading.character?).toList =
      (readings.take (intake.reads + 1)).filterMap Reading.character?
    rw [follows.given, head, List.take_add_one, List.filterMap_append]
    cases readings[intake.reads]? with
    | none => simp
    | some reading => cases reading <;> simp [Reading.character?]
  · show (intake.input.head?.bind Reading.fault?).or intake.fault? =
      Reading.lastFault? (readings.take (intake.reads + 1))
    rw [follows.fault, head, List.take_add_one, Reading.lastFault?, Reading.lastFault?,
      List.filterMap_append, List.getLast?_append]
    cases readings[intake.reads]? with
    | none => simp
    | some reading => cases reading <;> simp [Reading.fault?]
  · show (match intake.input.head?.bind Reading.character? with
      | some _ => utf8Size intake.given
      | none => intake.nextPosition + utf8Size intake.next?.toList) = _
    split
    · exact follows.bytes
    · rfl
  · show utf8Size (intake.given ++ (intake.input.head?.bind Reading.character?).toList) =
      (match intake.input.head?.bind Reading.character? with
        | some _ => utf8Size intake.given
        | none => intake.nextPosition + utf8Size intake.next?.toList) +
        utf8Size (intake.input.head?.bind Reading.character?).toList
    rw [utf8Size_append]
    split
    · rfl
    · rw [follows.bytes]

theorem pass (follows : Follows readings intake) (count : Nat) :
    Follows readings (intake.pass count) := by
  induction count generalizing intake with
  | zero => exact follows
  | succ count ih => exact ih follows.advance

/-- Passing a character is what it is for a scanner. -/
theorem scanner_advance (follows : Follows readings intake) {c : Char} {rest : List Char}
    (ahead : intake.text = c :: rest) : intake.advance.scanner = intake.scanner.pass [c] := by
  have shown : intake.current? = some c := by rw [current?_eq_head?, ahead]; rfl
  have position : intake.advance.position = intake.position + utf8Size [c] := by
    show intake.nextPosition = _
    rw [follows.nextPosition, shown]
    rfl
  have line : intake.advance.line = intake.line + UInt32.ofNat ([c].count '\n') := by
    show intake.line + UInt32.ofNat (intake.current?.toList.count '\n') = _
    rw [shown]
    rfl
  simp only [scanner, text_advance ahead, position, line, Scanner.pass, ahead]
  rfl

theorem scanner_pass (follows : Follows readings intake) {piece : List Char}
    (front : piece <+: intake.text) :
    (intake.pass piece.length).scanner = intake.scanner.pass piece := by
  induction piece generalizing intake with
  | nil => simp [Scanner.pass, utf8Size, Intake.pass]
  | cons c piece ih =>
    obtain ⟨rest, ahead⟩ := front
    have advanced : intake.advance.text = piece ++ rest := text_advance ahead.symm
    have later := ih follows.advance ⟨rest, advanced.symm⟩
    rw [follows.scanner_advance ahead.symm, ← Scanner.pass_append] at later
    exact later

/-- At the end of the text a run takes one more read and gives the end token. -/
theorem run_of_blank (follows : Follows readings intake)
    (skipped : Scanner.trivia intake.text = intake.text) :
    intake.run = (intake.scanner.run.1, intake.pass (intake.text.length + 1)) := by
  have ended : intake.skip.current? = none := by
    rw [current?_eq_head?, text_skip_of_blank skipped]
    rfl
  have start : intake.skip = intake.pass intake.text.length := by rw [skip_eq, skipped]
  have places : intake.skip.scanner = intake.scanner.pass intake.text := by
    rw [start, follows.scanner_pass (List.prefix_rfl)]
  have stays : intake.skip.advance.position = intake.skip.position := by
    have aligned := (follows.pass intake.text.length).nextPosition
    rw [← start, ended] at aligned
    exact aligned
  have stepped : intake.step = (.ok intake.skip.scanner.endToken, intake.skip.advance) := by
    unfold step
    dsimp only
    rw [ended, stays]
    rfl
  rw [run, dif_pos ended, stepped, places, Scanner.run_of_blank skipped, start, pass_add]
  rfl

end Follows

/-- Reads give the items of the text up to the first failing one, and stop one behind what they need
to know that it ends. -/
theorem run_eq {readings : List Reading} (intake : Intake) (follows : Follows readings intake) :
    intake.run = (intake.scanner.run.1, intake.pass (intake.text.length + 1)) := by
  obtain skipped | ⟨first, after, found⟩ := intake.blank_or_lexeme
  · exact follows.run_of_blank skipped
  · have within := length_piece_le found
    have goesOn : intake.skip.current? ≠ none := by
      rw [current?_eq_head?, text_skip_of_lexeme found]
      nofun
    have _shorter := length_step_lt goesOn
    have stepped := step_of_lexeme found
    have front : Scanner.trivia intake.text ++ (Lexeme.ofText first after).text <+: intake.text := by
      obtain ⟨behind, shape⟩ := Lexeme.ofText_text_isPrefix first after
      exact ⟨behind, by rw [List.append_assoc, shape, ← found]⟩
    have places := follows.scanner_pass front
    rw [Scanner.pass_append, List.length_append] at places
    have start : intake.skip.position =
        (intake.scanner.pass (Scanner.trivia intake.text)).offset := by
      rw [skip_eq, ← follows.scanner_pass (Scanner.trivia_isPrefix _)]
      rfl
    have scanned : intake.scanner.run.1 = _ := Scanner.run_of_lexeme rfl found
    have later := run_eq intake.step.2 (by rw [stepped]; exact follows.pass _)
    rw [run, dif_neg goesOn]
    simp only [later]
    rw [stepped]
    simp only [places, start]
    rw [scanned, text_pass _ _ within, List.length_drop, ← pass_add]
    refine Prod.ext rfl (congrArg intake.pass ?_)
    omega
termination_by intake.text.length

theorem follows_ofReadings (readings : List Reading) : Follows readings (ofReadings readings) :=
  (Follows.start readings).advance.advance

theorem scanner_ofReadings (readings : List Reading) :
    (ofReadings readings).scanner = { rest := Reading.text readings } := by
  obtain _ | ⟨_ | _, _ | ⟨_ | _, readings⟩⟩ := readings <;> rfl

theorem reads_pass (intake : Intake) (count : Nat) :
    (intake.pass count).reads = intake.reads + count := by
  induction count generalizing intake with
  | zero => rfl
  | succ count ih =>
    rw [pass, ih, Nat.add_comm count 1, ← Nat.add_assoc]
    rfl

/-- From the first read on, a run is the scan of the text in front of the first failing read, and takes
three reads more than that has characters. -/
theorem run_ofReadings (readings : List Reading) :
    (ofReadings readings).run.1 = (Scanner.run { rest := Reading.text readings }).1 ∧
      (ofReadings readings).run.2.reads = (Reading.text readings).length + 3 ∧
      Follows readings (ofReadings readings).run.2 := by
  have follows := follows_ofReadings readings
  have text : (ofReadings readings).text = Reading.text readings :=
    congrArg Scanner.rest (scanner_ofReadings readings)
  have two : (ofReadings readings).reads = 2 := rfl
  rw [run_eq _ follows, text, scanner_ofReadings]
  refine ⟨rfl, ?_, follows.pass _⟩
  rw [reads_pass, two]
  omega

end Intake

end TinyScript
