import TinyScript.Token.Scanner

/-! Scanning without places. Texts without comments are cut into tokens here regardless of where
they stand; the scanner finds the same tokens and adds lines and spans to them. -/
namespace TinyScript

/-- The token without its place in the source. -/
def Token.bare (token : Token) : Token := { token with line := 0, span := ⟨0, 0⟩ }

/-- The token that is always spelled in the same way. -/
def Token.fixed (kind : TokenKind) : Token :=
  { kind, lexeme := kind.description, line := 0, span := ⟨0, 0⟩ }

/-- The text is made of spacing and lexemes that stand for these tokens. -/
inductive Scans : List Char → List Token → Prop where
  | nil : Scans [] []
  | spacing {c : Char} {rest : List Char} {tokens : List Token}
      (isSpacing : Scanner.isSpacing c = true) (scans : Scans rest tokens) :
      Scans (c :: rest) tokens
  | lexeme {first : Char} {after text rest : List Char} {kind : TokenKind}
      {literal : Option Literal} {tokens : List Token}
      (solid : Scanner.trivia (first :: after) = [])
      (found : Lexeme.ofText first after = ⟨text, .token kind literal⟩)
      (shape : first :: after = text ++ rest) (scans : Scans rest tokens) :
      Scans (first :: after)
        ({ kind, lexeme := String.ofList text, literal, line := 0, span := ⟨0, 0⟩ } :: tokens)

theorem utf8ByteSize_ofList (text : List Char) :
    (String.ofList text).utf8ByteSize = utf8Size text := by
  induction text with
  | nil => rfl
  | cons c rest ih =>
    rw [← List.singleton_append, String.ofList_append, String.utf8ByteSize_append, ih]
    simp [utf8Size]

theorem utf8Size_append (front back : List Char) :
    utf8Size (front ++ back) = utf8Size front + utf8Size back := by
  simp only [← utf8ByteSize_ofList, String.ofList_append, String.utf8ByteSize_append]

namespace Scanner

theorem trivia_spacing {c : Char} (spacing : isSpacing c = true) (rest : List Char) :
    trivia (c :: rest) = c :: trivia rest := by
  have noSlash : c ≠ '/' := by rintro rfl; exact absurd spacing (by decide)
  rw [trivia]
  · simp [spacing]
  · rintro more rfl
    exact absurd rfl noSlash

theorem pass_append (scanner : Scanner) (front back : List Char) :
    scanner.pass (front ++ back) = (scanner.pass front).pass back := by
  simp [pass, utf8Size_append, List.count_append, Nat.add_assoc, UInt32.ofNat_add, UInt32.add_assoc]

theorem run_blank {scanner : Scanner} (blank : (scanner.pass (trivia scanner.rest)).rest = []) :
    ∃ final : Token, scanner.run.1 = [.ok final] ∧ final.kind = .endOfInput := by
  rw [run, dif_pos blank]
  unfold step
  dsimp only
  split
  · exact ⟨_, rfl, rfl⟩
  · next found => simp [blank] at found

/-- The item of a scanner in front of a lexeme, and where the run goes on. -/
theorem run_lexeme {scanner : Scanner} {first : Char} {after : List Char}
    (found : (scanner.pass (trivia scanner.rest)).rest = first :: after) :
    ∃ (start : Nat) (stop : Scanner),
      scanner.run.1 = stop.item start (Lexeme.ofText first after) :: stop.run.1 ∧
      stop.rest = (first :: after).drop (Lexeme.ofText first after).text.length := by
  have more : (scanner.pass (trivia scanner.rest)).rest ≠ [] := by simp [found]
  have stepped : scanner.step = (((scanner.pass (trivia scanner.rest)).pass
      (Lexeme.ofText first after).text).item (scanner.pass (trivia scanner.rest)).offset
        (Lexeme.ofText first after),
      (scanner.pass (trivia scanner.rest)).pass (Lexeme.ofText first after).text) := by
    unfold step
    dsimp only
    split
    · next blank => exact absurd blank more
    · next same =>
      obtain ⟨rfl, rfl⟩ := List.cons.inj (found.symm.trans same)
      rfl
  refine ⟨(scanner.pass (trivia scanner.rest)).offset,
    (scanner.pass (trivia scanner.rest)).pass (Lexeme.ofText first after).text, ?_, ?_⟩
  · rw [run.eq_def scanner, dif_neg more]
    simp only [stepped]
  · rw [← found]
    rfl

/-- A run does not change if a piece of what is skipped has been passed already. -/
theorem run_skipped {scanner : Scanner} {front behind : List Char}
    (shape : scanner.rest = front ++ behind)
    (skips : trivia scanner.rest = front ++ trivia behind) :
    scanner.run = (scanner.pass front).run := by
  have skipped : scanner.pass (trivia scanner.rest) =
      (scanner.pass front).pass (trivia (scanner.pass front).rest) := by
    rw [skips, pass_append]
    simp [pass, shape]
  have stepped : scanner.step = (scanner.pass front).step := by
    unfold step
    rw [skipped]
  rw [run.eq_def scanner, run.eq_def (scanner.pass front)]
  simp only [skipped, stepped]

/-- Spacing is passed like the rest of what a scanner skips. -/
theorem run_spacing {scanner : Scanner} {c : Char} {rest : List Char}
    (shape : scanner.rest = c :: rest) (spacing : isSpacing c = true) :
    scanner.run = (scanner.pass [c]).run :=
  run_skipped shape (by rw [shape, trivia_spacing spacing, List.singleton_append])

end Scanner

/-- The scanner finds the tokens of a text and puts an end token behind them. -/
theorem Scans.run {text : List Char} {tokens : List Token} (scans : Scans text tokens)
    (scanner : Scanner) (shape : scanner.rest = text) :
    ∃ (items : List Token) (final : Token), scanner.run.1 = items.map .ok ++ [.ok final] ∧
      items.map Token.bare = tokens ∧ final.kind = .endOfInput := by
  induction scans generalizing scanner with
  | nil =>
    have blank : (scanner.pass (Scanner.trivia scanner.rest)).rest = [] := by
      simp [shape, Scanner.pass]
    obtain ⟨final, same, isEnd⟩ := Scanner.run_blank blank
    exact ⟨[], final, same, rfl, isEnd⟩
  | @spacing c rest tokens spacing scans ih =>
    rw [Scanner.run_spacing shape spacing]
    exact ih _ (by simp [Scanner.pass, shape])
  | @lexeme first after text rest kind literal tokens solid found behind scans ih =>
    have here : (scanner.pass (Scanner.trivia scanner.rest)).rest = first :: after := by
      simp [shape, solid, Scanner.pass]
    obtain ⟨start, stop, same, left⟩ := Scanner.run_lexeme here
    rw [found] at same left
    obtain ⟨items, final, later, bared, isEnd⟩ := ih stop (by simp [left, behind])
    refine ⟨{ kind, lexeme := String.ofList text, literal, line := stop.line,
              span := ⟨start, stop.offset⟩ } :: items, final, ?_, ?_, isEnd⟩
    · rw [same, later]
      rfl
    · simp [bared, Token.bare]

end TinyScript
