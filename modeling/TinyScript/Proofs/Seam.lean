import TinyScript.Proofs.LexemeText
import TinyScript.Proofs.Yields

/-! Texts put together with a newline between them: nothing in the first is read otherwise because
of the second, and the second is read as if it stood alone, only further down. -/
namespace TinyScript

namespace Scanner

/-- With a newline and more text behind it, a text that is skipped as a whole is skipped together
with the newline, and any other is skipped just as far. -/
def SkipsAlike (skip : List Char → List Char) (text more : List Char) : Prop :=
  (skip text = text ∧ skip (text ++ '\n' :: more) = text ++ '\n' :: trivia more) ∨
    (skip text ≠ text ∧ skip (text ++ '\n' :: more) = skip text)

theorem SkipsAlike.cons {skip next : List Char → List Char} {c : Char} {text more : List Char}
    (alike : SkipsAlike next text more)
    (skips : ∀ behind, skip (c :: (text ++ behind)) = c :: next (text ++ behind)) :
    SkipsAlike skip (c :: text) more := by
  have alone : skip (c :: text) = c :: next text := by simpa using skips []
  rcases alike with ⟨whole, joined⟩ | ⟨part, joined⟩
  · exact .inl ⟨by rw [alone, whole],
      by rw [List.cons_append, skips, joined, List.cons_append]⟩
  · refine .inr ⟨?_, by rw [List.cons_append, skips, joined, alone]⟩
    rw [alone]
    exact fun same => part (List.cons.inj same).2

/-- A text that is not skipped at all is none the more with others behind it. -/
theorem SkipsAlike.solid {skip : List Char → List Char} {c : Char} {text more : List Char}
    (alone : skip (c :: text) = []) (joined : skip (c :: (text ++ '\n' :: more)) = []) :
    SkipsAlike skip (c :: text) more :=
  .inr ⟨by simp [alone], by rw [List.cons_append, joined, alone]⟩

/-- A slash that is not followed by another is not skipped. -/
theorem trivia_slash {text : List Char} (single : text.head? ≠ some '/') :
    trivia ('/' :: text) = [] := by
  rw [trivia]
  · rfl
  · rintro rest - rfl
    exact single rfl

mutual
theorem trivia_seam (more : List Char) : (text : List Char) → SkipsAlike trivia text more
  | [] => .inl ⟨rfl, trivia_spacing rfl more⟩
  | [c] => by
    by_cases spacing : isSpacing c = true
    · exact (trivia_seam more []).cons fun behind => trivia_spacing spacing _
    · by_cases slash : c = '/'
      · subst slash
        exact .solid (trivia_slash (by simp)) (trivia_slash (by simp))
      · have solid := trivia_solid (by simpa using spacing) slash
        exact .solid (solid _) (solid _)
  | c :: d :: rest => by
    by_cases spacing : isSpacing c = true
    · exact (trivia_seam more (d :: rest)).cons fun behind => trivia_spacing spacing _
    · by_cases slash : c = '/'
      · subst slash
        by_cases slashes : d = '/'
        · subst slashes
          -- The two slashes are skipped one by one, each in front of what the comment skips.
          have inside : SkipsAlike (fun text => '/' :: comment text.tail) ('/' :: rest) more :=
            (comment_seam more rest).cons fun behind => rfl
          exact inside.cons fun behind => by simp [trivia]
        · exact .solid (trivia_slash (by simpa using slashes)) (trivia_slash (by simpa using slashes))
      · have solid := trivia_solid (by simpa using spacing) slash
        exact .solid (solid _) (solid _)

theorem comment_seam (more : List Char) : (text : List Char) → SkipsAlike comment text more
  | [] => .inl ⟨rfl, by simp [comment]⟩
  | c :: rest => by
    by_cases newline : c = '\n'
    · exact (trivia_seam more rest).cons fun behind => by simp [comment, newline]
    · exact (comment_seam more rest).cons fun behind => by simp [comment, newline]
end

end Scanner

namespace Lexeme

theorem takeWhile_seam (wanted : Char → Bool) (stops : wanted '\n' = false)
    (text more : List Char) :
    (text ++ '\n' :: more).takeWhile wanted = text.takeWhile wanted := by
  induction text with
  | nil => simp [stops]
  | cons c rest ih => simp only [List.cons_append, List.takeWhile_cons, ih]

theorem head?_seam {text more : List Char} {c : Char} (other : c ≠ '\n') :
    (text ++ '\n' :: more).head? = some c ↔ text.head? = some c := by
  cases text with
  | nil => simp [other.symm]
  | cons first rest => simp

theorem quoted_seam {quote : Char} {after more : List Char} {unclosed : LexicalCause}
    {meaning : List Char → Meaning} {kind : TokenKind} {literal : Option Literal}
    (closed : (quoted quote after unclosed meaning).meaning = .token kind literal) :
    quoted quote (after ++ '\n' :: more) unclosed meaning = quoted quote after unclosed meaning := by
  have ends : (after.takeWhile (· ≠ quote)).length ≠ after.length := by
    intro missing
    simp only [quoted, missing, ↓reduceIte, reduceCtorEq] at closed
  have shorter : (after.takeWhile (· ≠ quote)).length ≤ after.length :=
    (List.takeWhile_prefix _).length_le
  have body : (after ++ '\n' :: more).takeWhile (· ≠ quote) = after.takeWhile (· ≠ quote) := by
    rw [List.takeWhile_append, if_neg ends]
  have endsToo : (after.takeWhile (· ≠ quote)).length ≠ (after ++ '\n' :: more).length := by
    simp only [List.length_append, List.length_cons]
    omega
  unfold quoted
  rw [body]
  dsimp only
  rw [if_neg ends, if_neg endsToo]

theorem numeral_seam (first : Char) (after more : List Char) :
    numeral first (after ++ '\n' :: more) = numeral first after := by
  have marked : (after ++ '\n' :: more).head? = some 'x' ↔ after.head? = some 'x' :=
    head?_seam (by decide)
  unfold numeral
  rw [takeWhile_seam Text.isDecimalDigit (by decide)]
  simp only [marked]
  split
  · next hex =>
    have digits : (after ++ '\n' :: more).tail.takeWhile Text.isHexDigit =
        after.tail.takeWhile Text.isHexDigit := by
      cases after with
      | nil => simp at hex
      | cons c digits => exact takeWhile_seam Text.isHexDigit (by decide) digits more
    rw [digits]
  · rfl

/-- A token is the same lexeme in front of a newline. -/
theorem ofText_seam {first : Char} {after more : List Char} {kind : TokenKind}
    {literal : Option Literal} (wellFormed : (ofText first after).meaning = .token kind literal) :
    ofText first (after ++ '\n' :: more) = ofText first after := by
  unfold ofText at wellFormed ⊢
  cases alone : single? first with
  | some kind => rfl
  | none =>
    cases paired : pair? first with
    | some pair =>
      obtain ⟨second, double, single⟩ := pair
      have other : second ≠ '\n' := by
        rintro rfl
        unfold pair? at paired
        split at paired <;> simp at paired
      simp only [head?_seam other]
    | none =>
      simp only [alone, paired] at wellFormed ⊢
      split
      · next opening =>
        rw [if_pos opening] at wellFormed
        exact quoted_seam wellFormed
      next plain =>
      rw [if_neg plain] at wellFormed
      split
      · next opening =>
        rw [if_pos opening] at wellFormed
        exact quoted_seam wellFormed
      split
      · exact numeral_seam first after more
      split
      · simp only [word, takeWhile_seam isWordCharacter (by decide)]
      · rfl

end Lexeme

namespace Scanner

/-- The scanner with a newline and more text behind its input. -/
def extended (scanner : Scanner) (more : List Char) : Scanner :=
  { scanner with rest := scanner.rest ++ '\n' :: more }

theorem extended_pass {scanner : Scanner} {text behind : List Char}
    (front : scanner.rest = text ++ behind) (more : List Char) :
    (scanner.extended more).pass text = (scanner.pass text).extended more := by
  simp [pass, extended, front]

theorem meaning_of_item_eq_ok {scanner : Scanner} {start : Nat} {lexeme : Lexeme} {token : Token}
    (wellFormed : scanner.item start lexeme = .ok token) :
    ∃ kind literal, lexeme.meaning = .token kind literal := by
  unfold item at wellFormed
  dsimp only at wellFormed
  split at wellFormed
  · next kind literal meant => exact ⟨kind, literal, meant⟩
  · simp at wellFormed

/-- In front of a newline and more text a scanner finds what it finds alone, if that is all well
formed, and goes on behind the newline. -/
theorem Yields.run_extended {scanner : Scanner} {items : List Item} (yields : scanner.Yields items)
    {tokens : List Token} {final : Token} (clean : items = tokens.map .ok ++ [.ok final])
    (more : List Char) :
    (scanner.extended more).run.1 =
      tokens.map .ok ++ ((scanner.extended more).pass (scanner.rest ++ ['\n'])).run.1 := by
  induction yields generalizing tokens with
  | @blank scanner skipped =>
    obtain rfl : tokens = [] := by
      cases tokens with
      | nil => rfl
      | cons token others => simp at clean
    have skips : trivia (scanner.rest ++ '\n' :: more) = scanner.rest ++ '\n' :: trivia more := by
      rcases trivia_seam more scanner.rest with ⟨_, joined⟩ | ⟨part, _⟩
      · exact joined
      · exact absurd skipped part
    have shape : (scanner.extended more).rest = scanner.rest ++ ['\n'] ++ more := by
      simp [extended]
    rw [run_skipped shape (by simpa [extended] using skips)]
    rfl
  | @lexeme scanner gap after first items skipped found later ih =>
    cases tokens with
    | nil =>
      have none : items = [] := by simpa using congrArg List.tail clean
      cases later <;> simp at none
    | cons token others =>
      -- A lexeme that is well formed does not reach over the newline, so both scanners pass it.
      obtain ⟨here, others_eq⟩ := List.cons.inj clean
      obtain ⟨kind, literal, meant⟩ := meaning_of_item_eq_ok here
      obtain ⟨behind, front⟩ := Lexeme.ofText_text_isPrefix first after
      have ahead : (scanner.pass gap).rest = (Lexeme.ofText first after).text ++ behind :=
        (pass_rest_of_append found).trans front.symm
      have skips : trivia (scanner.extended more).rest = gap := by
        rcases trivia_seam more scanner.rest with ⟨whole, _⟩ | ⟨_, joined⟩
        · simp [skipped.symm.trans whole] at found
        · exact joined.trans skipped
      have shape : (scanner.extended more).rest = gap ++ first :: (after ++ '\n' :: more) := by
        simp [extended, found]
      have passed : ((scanner.extended more).pass gap).pass (Lexeme.ofText first after).text =
          ((scanner.pass gap).pass (Lexeme.ofText first after).text).extended more := by
        rw [extended_pass found, extended_pass ahead]
      have whole : scanner.rest ++ ['\n'] = gap ++ ((Lexeme.ofText first after).text ++
          (((scanner.pass gap).pass (Lexeme.ofText first after).text).rest ++ ['\n'])) := by
        rw [pass_rest_of_append ahead, found, ← front]
        simp
      rw [run_of_lexeme skips shape, Lexeme.ofText_seam meant, whole, pass_append, pass_append,
        passed, ih others_eq]
      exact congrArg (· :: _) here

end Scanner

def Span.moved (bytes : Nat) (span : Span) : Span := ⟨span.start + bytes, span.stop + bytes⟩

/-- The token so many bytes and lines further down, the lines added in 32 bits. -/
def Token.moved (bytes lines : Nat) (token : Token) : Token :=
  { token with line := token.line + UInt32.ofNat lines, span := token.span.moved bytes }

def LexicalError.moved (bytes lines : Nat) (error : LexicalError) : LexicalError :=
  { error with line := error.line + UInt32.ofNat lines, span := error.span.moved bytes }

def Item.moved (bytes lines : Nat) : Item → Item
  | .ok token => .ok (token.moved bytes lines)
  | .error error => .error (error.moved bytes lines)

namespace Scanner

/-- The other scanner has the same in front of it, so many bytes and lines further down. -/
structure Ahead (bytes lines : Nat) (scanner other : Scanner) : Prop where
  rest : other.rest = scanner.rest
  offset : other.offset = scanner.offset + bytes
  line : other.line = scanner.line + UInt32.ofNat lines

variable {bytes lines : Nat} {scanner other : Scanner}

theorem Ahead.pass (ahead : Ahead bytes lines scanner other) (text : List Char) :
    Ahead bytes lines (scanner.pass text) (other.pass text) where
  rest := by simp [Scanner.pass, ahead.rest]
  offset := by simp only [Scanner.pass, ahead.offset]; omega
  line := by simp only [Scanner.pass, ahead.line]; ac_rfl

theorem Ahead.item_eq (ahead : Ahead bytes lines scanner other) (start : Nat) (lexeme : Lexeme) :
    other.item (start + bytes) lexeme = (scanner.item start lexeme).moved bytes lines := by
  unfold item
  rw [ahead.offset, ahead.line]
  dsimp only
  split <;> rfl

/-- What stands further down gives the same items further down. -/
theorem Yields.run_ahead {items : List Item} (yields : scanner.Yields items)
    (ahead : Ahead bytes lines scanner other) :
    other.run.1 = items.map (Item.moved bytes lines) := by
  induction yields generalizing other with
  | @blank scanner skipped =>
    have last := ahead.pass scanner.rest
    have skippedToo : trivia other.rest = other.rest := by rw [ahead.rest, skipped]
    rw [run_of_blank skippedToo, ahead.rest]
    simp [Item.moved, Token.moved, Span.moved, endToken, last.offset, last.line]
  | @lexeme scanner gap after first items skipped found later ih =>
    have started := ahead.pass gap
    have stopped := started.pass (Lexeme.ofText first after).text
    rw [← ahead.rest] at skipped found
    rw [run_of_lexeme skipped found, ih stopped, started.offset, stopped.item_eq, List.map_cons]

end Scanner

/-- The items of two texts with a newline between them: those of the first, if it is well formed,
and those of the second further down. -/
theorem scan_joined {first : String} {tokens : List Token} {final : Token}
    (clean : scan first = tokens.map .ok ++ [.ok final]) (second : String) :
    scan (first ++ "\n" ++ second) = tokens.map .ok ++
      (scan second).map (Item.moved (first.utf8ByteSize + 1) (first.toList.count '\n' + 1)) := by
  have joined : Scanner.ofText (first ++ "\n" ++ second) =
      (Scanner.ofText first).extended second.toList := by
    simp [Scanner.ofText, Scanner.extended]
  have size : utf8Size (first.toList ++ ['\n']) = first.utf8ByteSize + 1 := by
    rw [utf8Size_append, ← utf8ByteSize_ofList, String.ofList_toList]
    rfl
  unfold scan
  rw [joined, (Scanner.ofText first).run_yields.run_extended clean]
  congr 1
  exact (Scanner.ofText second).run_yields.run_ahead {
    rest := by simp [Scanner.pass, Scanner.extended, Scanner.ofText]
    offset := by simp [Scanner.pass, Scanner.extended, Scanner.ofText, size]
    line := by simp [Scanner.pass, Scanner.extended, Scanner.ofText] }

end TinyScript
