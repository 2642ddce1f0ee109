import TinyScript.Proofs.Expectations
import TinyScript.Proofs.Provenance

/-! Plain reports of malformed texts. A report shows the token it stands at, and of all tokens only
strings and byte strings can hold a newline; so the reports are one line each, in the order of the
errors, exactly if no syntax error stands at such a token. -/
namespace TinyScript

namespace Text

/-- The lines of a text: the pieces between its newlines. -/
def lines (text : String) : List String := (text.toList.splitOn '\n').map String.ofList

theorem length_lines (text : String) : (lines text).length = text.toList.count '\n' + 1 := by
  rw [lines, List.length_map]
  induction text.toList with
  | nil => rfl
  | cons c rest ih =>
    rw [List.splitOn_cons_eq_if_modifyHead, List.count_cons]
    split
    · simp [ih]
    · simp [ih]

theorem lines_of_notMem {text : String} (single : '\n' ∉ text.toList) : lines text = [text] := by
  rw [lines, List.splitOn_eq_singleton single, List.map_singleton, String.ofList_toList]

/-- Texts that are put together with newlines have their own lines, one text after another. -/
theorem lines_intercalate {texts : List String} (some : texts ≠ []) :
    lines (String.intercalate "\n" texts) = texts.flatMap lines := by
  induction texts with
  | nil => exact absurd rfl some
  | cons first others ih =>
    cases others with
    | nil => simp
    | cons second others =>
      have shape : (String.intercalate "\n" (first :: second :: others)).toList =
          first.toList ++ '\n' :: (String.intercalate "\n" (second :: others)).toList := by
        simp [String.intercalate_cons_cons]
      rw [List.flatMap_cons, ← ih (by simp), lines, lines, lines, shape,
        List.splitOn_append_cons_self, List.map_append]

theorem length_flatMap_lines (texts : List String) :
    (texts.flatMap lines).length =
      texts.length + (texts.map fun text => text.toList.count '\n').sum := by
  induction texts with
  | nil => rfl
  | cons first others ih =>
    simp only [List.flatMap_cons, List.length_append, length_lines, ih, List.length_cons,
      List.map_cons, List.sum_cons]
    omega

theorem flatMap_lines_of_notMem {texts : List String}
    (single : ∀ text ∈ texts, '\n' ∉ text.toList) : texts.flatMap lines = texts := by
  induction texts with
  | nil => rfl
  | cons first others ih =>
    obtain ⟨here, later⟩ := List.forall_mem_cons.1 single
    rw [List.flatMap_cons, lines_of_notMem here, ih later, List.singleton_append]

theorem newline_not_mem_number (number : UInt32) : '\n' ∉ (toString number).toList := by
  intro member
  have written : toString number = toString number.toNat := rfl
  have digit : '\n' ∈ Nat.toDigits 10 number.toNat := by simpa [written] using member
  exact absurd (isDecimalDigit_of_mem_toDigits digit) (by decide)

end Text

/-- A string or a byte string. -/
def Token.IsQuoted (token : Token) : Prop := token.kind = .string ∨ token.kind = .bytes

namespace Lexeme

theorem newline_not_mem_of_all {wanted : Char → Bool} {text : List Char}
    (stops : wanted '\n' = false) (all : ∀ c ∈ text, wanted c = true) : '\n' ∉ text := by
  intro member
  rw [all _ member] at stops
  cases stops

theorem newline_not_mem_takeWhile {wanted : Char → Bool} (stops : wanted '\n' = false)
    (text : List Char) : '\n' ∉ text.takeWhile wanted :=
  newline_not_mem_of_all stops fun _ member => List.mem_takeWhile_imp member

theorem newline_not_mem_numeral {first : Char} (digit : Text.isDecimalDigit first = true)
    (after : List Char) : '\n' ∉ (numeral first after).text := by
  have solid : '\n' ≠ first := by
    rintro rfl
    exact absurd digit (by decide)
  unfold numeral
  split
  · simpa using newline_not_mem_takeWhile (by decide) after.tail
  · simpa [solid] using newline_not_mem_takeWhile (by decide) after

theorem newline_not_mem_word {first : Char} (letter : isLetter first = true) (after : List Char) :
    '\n' ∉ (word first after).text := by
  have solid : '\n' ≠ first := by
    rintro rfl
    exact absurd letter (by decide)
  simpa [word, solid] using newline_not_mem_takeWhile (by decide) after

theorem kind_of_quoted {quote : Char} {after : List Char} {unclosed : LexicalCause}
    {meaning : List Char → Meaning} {kind : TokenKind} {literal : Option Literal}
    (meant : (quoted quote after unclosed meaning).meaning = .token kind literal) :
    ∃ body, meaning body = .token kind literal := by
  unfold quoted at meant
  dsimp only at meant
  split at meant
  · cases meant
  · exact ⟨_, meant⟩

/-- A lexeme with a newline in it stands for a quoted token or for none. -/
theorem newline_not_mem_ofText {first : Char} {after : List Char} {kind : TokenKind}
    {literal : Option Literal} (meant : (ofText first after).meaning = .token kind literal)
    (noString : kind ≠ .string) (noBytes : kind ≠ .bytes) : '\n' ∉ (ofText first after).text := by
  revert meant
  unfold ofText
  split
  · next single =>
    intro _ member
    obtain rfl := List.mem_singleton.1 member
    cases single
  · next second double alone _ pair =>
    have noNewline : first ≠ '\n' ∧ second ≠ '\n' := by
      unfold pair? at pair
      split at pair
      case h_7 => cases pair
      all_goals
        cases pair
        exact ⟨by decide, by decide⟩
    split
    · intro _
      simp [noNewline.1.symm, noNewline.2.symm]
    · intro _
      simp [noNewline.1.symm]
  · split
    · intro meant
      obtain ⟨body, same⟩ := kind_of_quoted meant
      cases same
      exact absurd rfl noString
    split
    · intro meant
      obtain ⟨body, same⟩ := kind_of_quoted meant
      unfold bytesMeaning at same
      split at same
      · cases same
        exact absurd rfl noBytes
      · cases same
    split
    · next digit =>
      intro _
      exact newline_not_mem_numeral digit after
    split
    · next letter =>
      intro _
      exact newline_not_mem_word letter after
    · intro meant
      cases meant

end Lexeme

theorem Scanner.Yields.newline_not_mem {scanner : Scanner} {items : List Item}
    (yields : scanner.Yields items) {token : Token} (member : .ok token ∈ items)
    (bare : ¬ token.IsQuoted) : '\n' ∉ token.lexeme.toList := by
  induction yields with
  | blank skipped =>
    cases List.mem_singleton.1 member
    simp [endToken]
  | @lexeme scanner gap after first items _ _ _ ih =>
    rcases List.mem_cons.1 member with here | later
    · unfold item at here
      dsimp only at here
      split at here
      · next kind literal meant =>
        cases here
        rw [String.toList_ofList]
        exact Lexeme.newline_not_mem_ofText meant (fun isString => bare (.inl isString))
          fun isBytes => bare (.inr isBytes)
      · cases here
    · exact ih later

/-- Only strings and byte strings of a source have newlines in them. -/
theorem newline_not_mem_lexeme {source : String} {token : Token}
    (listed : token ∈ scanTokens source) (bare : ¬ token.IsQuoted) :
    '\n' ∉ token.lexeme.toList :=
  (Scanner.ofText source).run_yields.newline_not_mem (item_of_token listed) bare

/-- The form of a report: the number of a line, a place, which may be left out, and a message. -/
def IsReport (text : String) : Prop :=
  ∃ (line : UInt32) (place message : String),
    text = "[line " ++ toString line ++ "] Error" ++ place ++ ": " ++ message ∧
      (place = "" ∨ place = " at end" ∨ ∃ lexeme, place = " at '" ++ lexeme ++ "'")

theorem LexicalError.isReport (error : LexicalError) : IsReport error.report :=
  ⟨error.line, "", error.cause.message, by simp [report, String.append_assoc], .inl rfl⟩

theorem SyntaxError.isReport (error : SyntaxError) : IsReport error.report := by
  refine ⟨error.token.line, error.place, error.cause.message, rfl, .inr ?_⟩
  unfold place
  split
  · exact .inl rfl
  · exact .inr ⟨error.token.lexeme, rfl⟩

theorem LexicalCause.newline_not_mem_message (cause : LexicalCause) :
    '\n' ∉ cause.message.toList := by
  cases cause <;> simp [message]

theorem LexicalError.count_report (error : LexicalError) : error.report.toList.count '\n' = 0 := by
  simp [report, List.count_eq_zero, Text.newline_not_mem_number,
    error.cause.newline_not_mem_message]

/-- A report has the newlines of the token it stands at. -/
theorem SyntaxError.count_report {error : SyntaxError} (listed : error.cause.Listed)
    {source : String} (known : error.token ∈ scanTokens source) :
    error.report.toList.count '\n' = error.token.lexeme.toList.count '\n' := by
  have line := List.count_eq_zero.2 (Text.newline_not_mem_number error.token.line)
  have message := List.count_eq_zero.2 listed.newline_not_mem
  have place : error.place.toList.count '\n' = error.token.lexeme.toList.count '\n' := by
    unfold SyntaxError.place
    split
    -- At the end no lexeme is shown, so it must not have newlines of its own.
    · next isEnd =>
      have bare : ¬ error.token.IsQuoted := by
        rintro (isString | isBytes)
        · rw [isEnd] at isString
          cases isString
        · rw [isEnd] at isBytes
          cases isBytes
      rw [List.count_eq_zero.2 (newline_not_mem_lexeme known bare)]
      rfl
    · simp
  simp [report, line, message, place]

/-- The plain report has the lines of the reports, one report after another. -/
theorem Failure.lines_plain (path source : String) {lexical : List LexicalError}
    {errors : List SyntaxError} (some : lexical ≠ [] ∨ errors ≠ []) :
    Text.lines (Failure.malformed path source lexical errors).plain =
      (lexical.map LexicalError.report ++ errors.map SyntaxError.report).flatMap Text.lines := by
  refine Text.lines_intercalate ?_
  rcases some with some | some <;> simp [some]

section Counting

variable {source : String} {errors : List SyntaxError}

theorem counts_reports (listed : SyntaxError.Explained errors)
    (known : ∀ error ∈ errors, error.token ∈ scanTokens source) (lexical : List LexicalError) :
    ((lexical.map LexicalError.report ++ errors.map SyntaxError.report).map
        fun report => report.toList.count '\n').sum =
      (errors.map fun error => error.token.lexeme.toList.count '\n').sum := by
  have quiet : lexical.map (fun error => error.report.toList.count '\n') = lexical.map fun _ => 0 :=
    List.map_congr_left fun error _ => error.count_report
  have shown : errors.map (fun error => error.report.toList.count '\n') =
      errors.map fun error => error.token.lexeme.toList.count '\n' :=
    List.map_congr_left fun error member =>
      SyntaxError.count_report (listed error member) (known error member)
  rw [List.map_append, List.map_map, List.map_map, Function.comp_def, Function.comp_def, quiet,
    shown, List.sum_append]
  simp

/-- No newline is shown exactly if no error stands at a quoted token with one. -/
theorem counts_eq_zero_iff (known : ∀ error ∈ errors, error.token ∈ scanTokens source) :
    (errors.map fun error => error.token.lexeme.toList.count '\n').sum = 0 ↔
      ∀ error ∈ errors, error.token.IsQuoted → '\n' ∉ error.token.lexeme.toList := by
  rw [List.sum_eq_zero_iff_forall_eq_nat, List.forall_mem_map]
  constructor
  · intro zero error member _
    exact List.count_eq_zero.1 (zero error member)
  · intro single error member
    by_cases isQuoted : error.token.IsQuoted
    · exact List.count_eq_zero.2 (single error member isQuoted)
    · exact List.count_eq_zero.2 (newline_not_mem_lexeme (known error member) isQuoted)

end Counting

/-- Reports of a text that is no program. All of them have the form of a report, and the plain
report has one line for each of the errors and one more for each newline in a token that a syntax
error stands at. So its lines are the reports of the errors, one after another, exactly if no syntax
error stands at a string or a byte string over several lines. -/
theorem plain_reports_one_line_each_iff (session : Session) (fuel : Nat) (path source : String)
    {shownPath shown : String} {lexical : List LexicalError} {errors : List SyntaxError}
    (failed : (session.run fuel path source).1 =
      .failed (.malformed shownPath shown lexical errors)) :
    let lines := Text.lines (Failure.malformed shownPath shown lexical errors).plain
    let reports := lexical.map LexicalError.report ++ errors.map SyntaxError.report
    (∀ report ∈ reports, IsReport report) ∧
      lines.length = lexical.length + errors.length +
        (errors.map fun error => error.token.lexeme.toList.count '\n').sum ∧
      (lines.length = lexical.length + errors.length ∧ lines = reports ∧
          (∀ line ∈ lines, IsReport line) ↔
        ∀ error ∈ errors, error.token.IsQuoted → '\n' ∉ error.token.lexeme.toList) := by
  intro lines reports
  obtain ⟨someErrors, same⟩ : (parse source).hasErrors = true ∧ _ := by
    rcases Session.run_failed_iff.1 failed with malformed | ⟨_, _, wrong, _⟩
    · exact malformed
    · cases wrong
  cases same
  have known := (parse_fits source).2
  have listed : SyntaxError.Explained (parse source).errors := parseItems_explained (scan source)
  have some : (parse source).lexicalErrors ≠ [] ∨ (parse source).errors ≠ [] := by
    simpa [Parsed.hasErrors, or_comm] using someErrors
  have own : lines = reports.flatMap Text.lines := Failure.lines_plain path source some
  have formed : ∀ report ∈ reports, IsReport report := by
    refine List.forall_mem_append.2 ⟨?_, ?_⟩
    · exact List.forall_mem_map.2 fun error _ => error.isReport
    · exact List.forall_mem_map.2 fun error _ => error.isReport
  have counted : lines.length = (parse source).lexicalErrors.length + (parse source).errors.length +
      ((parse source).errors.map fun error => error.token.lexeme.toList.count '\n').sum := by
    rw [own, Text.length_flatMap_lines, counts_reports listed known]
    simp [reports]
  refine ⟨formed, counted, ?_⟩
  -- Both sides say that no newline is shown: then the lines are as many as the reports.
  rw [← counts_eq_zero_iff known]
  constructor
  · rintro ⟨count, _, _⟩
    omega
  · intro zero
    have whole : lines = reports := by
      rw [← counts_reports listed known, List.sum_eq_zero_iff_forall_eq_nat,
        List.forall_mem_map] at zero
      rw [own]
      exact Text.flatMap_lines_of_notMem fun report member =>
        List.count_eq_zero.1 (zero report member)
    exact ⟨by omega, whole, whole ▸ formed⟩

theorem Session.run_malformed (session : Session) (fuel : Nat) (path : String) {source : String}
    {lexical : List LexicalError} {errors : List SyntaxError}
    (sameLexical : (parse source).lexicalErrors = lexical)
    (sameErrors : (parse source).errors = errors) (some : errors ≠ []) :
    (session.run fuel path source).1 = .failed (.malformed path source lexical errors) := by
  subst sameLexical sameErrors
  refine Session.run_failed_iff.2 (.inl ⟨?_, rfl⟩)
  simp [Parsed.hasErrors, some]

private def unused : Session := Session.start fun _ => 0

private def spread : String := "\"a\nb\" 1;\n#"

private def one : Token :=
  { kind := .number, lexeme := "1", literal := some (.int 1), line := 2, span := ⟨6, 7⟩ }

private def hash : LexicalError :=
  { cause := .unexpectedCharacter '#', lexeme := "#", line := 3, span := ⟨9, 10⟩ }

/-- A string over two lines stands in front of what is wrong, not at it. -/
theorem spread_reported_line_by_line :
    (unused.run 9 "main" spread).1 =
        .failed (.malformed "main" spread [hash] [⟨.expected "';' after expression", one⟩]) ∧
      Text.lines (Failure.malformed "main" spread [hash]
          [⟨.expected "';' after expression", one⟩]).plain =
        ["[line 3] Error: Unexpected character.",
          "[line 2] Error at '1': Expect ';' after expression."] := by
  have failed : (unused.run 9 "main" spread).1 =
      .failed (.malformed "main" spread [hash] [⟨.expected "';' after expression", one⟩]) :=
    unused.run_malformed 9 "main" (by decide +kernel) (by decide +kernel) (List.cons_ne_nil _ _)
  obtain ⟨_, _, exact⟩ := plain_reports_one_line_each_iff unused 9 "main" spread failed
  have single := exact.2 (by simp [one])
  exact ⟨failed, single.2.1.trans (by decide +kernel)⟩

private def broken : String := "1 \"a\nb\";"

private def ab : Token :=
  { kind := .string, lexeme := "\"a\nb\"", literal := some (.string "a\nb"), line := 2
    span := ⟨2, 7⟩ }

private def pieces : List String :=
  ["[line 2] Error at '\"a", "b\"': Expect ';' after expression."]

/-- One error at a string over two lines is reported in two lines, and the first of them is not its
report. -/
theorem broken_reported_in_two_lines :
    let error : SyntaxError := ⟨.expected "';' after expression", ab⟩
    let lines := Text.lines (Failure.malformed "main" broken [] [error]).plain
    (unused.run 9 "main" broken).1 = .failed (.malformed "main" broken [] [error]) ∧
      lines = pieces ∧ lines.length ≠ 0 + [error].length ∧ lines.head? ≠ some error.report := by
  intro error lines
  have report : error.report = String.intercalate "\n" pieces := by decide +kernel
  have shown : lines = pieces := by
    have own : lines = [error.report].flatMap Text.lines :=
      Failure.lines_plain "main" broken (.inr (List.cons_ne_nil _ _))
    rw [own, report, List.flatMap_singleton, Text.lines_intercalate (by decide)]
    exact Text.flatMap_lines_of_notMem (by decide)
  refine ⟨?_, shown, by rw [shown]; decide, by rw [shown, report]; decide⟩
  exact unused.run_malformed 9 "main" (by decide +kernel) (by decide +kernel) (List.cons_ne_nil _ _)

end TinyScript
