import TinyScript.Syntax.Program
import TinyScript.Proofs.SentenceUnique

/-! A token list parses without an error exactly when the grammar derives it, and then the program
is the one its only derivation spells. -/
namespace TinyScript

open Phrase

/-- `program → { declaration }`, with the tokens that spell the declarations. -/
structure Program (counter : Phrase → Prop) (printing : Bool) (body : List Sentence)
    (tokens : List Token) : Prop where
  derives : ∀ sentence ∈ body, sentence.Derives counter printing .declaration
  spelled : Sentence.allTokens body = tokens

theorem Program.unique {printing : Bool} {body other : List Sentence} {tokens : List Token}
    (program : Program IsName printing body tokens)
    (otherProgram : Program IsName printing other tokens) : other = body := by
  have same : Sentence.allTokens other ++ [] = Sentence.allTokens body ++ [] := by
    rw [program.spelled, otherProgram.spelled]
  exact (Sentence.body_unique (fun sentence member => (otherProgram.derives sentence member).determined)
    otherProgram.derives program.derives (.inl rfl) (.inl rfl) same).1

namespace Grammar

variable {final : Token}

/-- Outside of a block, nothing but the end of the input ends the declarations. -/
theorem rest_of_readsAll (tokens : List Token) {statements : List Stmt} {rest : List Token}
    (reads : ReadsAll final false tokens statements rest) : rest = [] := by
  match tokens with
  | [] => exact (readsAll_nil.1 reads).2
  | first :: after =>
    obtain ⟨_, middle, _, front, inner, _⟩ := (readsAll_cons (by simp)).1 reads
    have shorter := front.length_lt
    exact rest_of_readsAll middle inner
termination_by tokens.length
decreasing_by exact shorter

theorem readsAll_iff_program {tokens : List Token} {statements : List Stmt} :
    ReadsAll final false tokens statements [] ↔
      ∃ body, Program IsName true body tokens ∧ Sentence.stmts body = statements := by
  constructor
  · intro reads
    obtain ⟨body, derives, taken, same⟩ := declarations_sound false tokens reads
    exact ⟨body, ⟨derives, by simpa using taken.symm⟩, same⟩
  · intro found
    obtain ⟨body, ⟨derives, rfl⟩, rfl⟩ := found
    simpa using readsAll_of_stand derives
      (fun sentence member => sentence_stands (derives sentence member)) (.inl rfl)

end Grammar

/-- Tokens in front of other items come first. -/
theorem Feed.ofItems_append {tokens : List Token}
    (noEnd : ∀ token ∈ tokens, token.kind ≠ .endOfInput) (items : List Item) :
    Feed.ofItems (tokens.map .ok ++ items) =
      { Feed.ofItems items with tokens := tokens ++ (Feed.ofItems items).tokens } := by
  induction tokens with
  | nil => rfl
  | cons first others ih =>
    have notEnd := noEnd first (by simp)
    simp [Feed.ofItems, notEnd, ih fun token member => noEnd token (by simp [member])]

theorem Feed.ofItems_closed {tokens : List Token} {final : Token} (unread : List Item)
    (noEnd : ∀ token ∈ tokens, token.kind ≠ .endOfInput) (isEnd : final.kind = .endOfInput) :
    Feed.ofItems (tokens.map .ok ++ .ok final :: unread) = ⟨tokens, some final, [], unread⟩ := by
  rw [Feed.ofItems_append noEnd]
  simp [Feed.ofItems, isEnd]

/-- What parsing gives for tokens with an end token behind them. -/
theorem parseItems_closed {tokens : List Token} {final : Token} (unread : List Item)
    (noEnd : ∀ token ∈ tokens, token.kind ≠ .endOfInput) (isEnd : final.kind = .endOfInput) :
    parseItems (tokens.map .ok ++ .ok final :: unread) =
      ⟨(Grammar.declarations final false tokens).statements,
        (Grammar.declarations final false tokens).errors, []⟩ := by
  unfold parseItems
  rw [Feed.ofItems_closed unread noEnd isEnd]
  rfl

/-- Tokens with an end token behind them parse cleanly to the statements of a program exactly when
they spell that program. -/
theorem parseItems_clean_iff {tokens : List Token} {final : Token} (unread : List Item)
    (noEnd : ∀ token ∈ tokens, token.kind ≠ .endOfInput) (isEnd : final.kind = .endOfInput)
    {statements : List Stmt} :
    parseItems (tokens.map .ok ++ .ok final :: unread) = ⟨statements, [], []⟩ ↔
      ∃ body, Program IsName true body tokens ∧ Sentence.stmts body = statements := by
  have clean : Grammar.ReadsAll final false tokens statements [] ↔ _ := Grammar.readsAll_iff_program
  rw [parseItems_closed unread noEnd isEnd, ← clean, Parsed.mk.injEq]
  constructor
  · intro found
    obtain ⟨same, quiet, _⟩ := found
    exact ⟨same, quiet, Grammar.rest_of_readsAll tokens ⟨same, quiet, rfl⟩⟩
  · intro found
    obtain ⟨same, quiet, _⟩ := found
    exact ⟨same, quiet, rfl⟩

/-- Tokens parse without an error exactly when they spell a program in which only names are counted
up or down. The program is then the only one they spell, and its statements are the result. -/
theorem parseTokens_accepts_exactly_programs (tokens : List Token) (final : Token)
    (noEnd : ∀ token ∈ tokens, token.kind ≠ .endOfInput) (isEnd : final.kind = .endOfInput) :
    ((parseTokens (tokens ++ [final])).errors = [] ↔ ∃ body, Program IsName true body tokens) ∧
      ∀ body, Program IsName true body tokens →
        (parseTokens (tokens ++ [final])).statements = Sentence.stmts body ∧
          ∀ other, Program IsName true other tokens → other = body := by
  have shape : parseTokens (tokens ++ [final]) = parseItems (tokens.map .ok ++ [.ok final]) := by
    simp [parseTokens]
  rw [shape]
  refine ⟨⟨?_, ?_⟩, ?_⟩
  · intro quiet
    rw [parseItems_closed [] noEnd isEnd] at quiet
    have clean : parseItems (tokens.map .ok ++ [.ok final]) =
        ⟨(Grammar.declarations final false tokens).statements, [], []⟩ := by
      rw [parseItems_closed [] noEnd isEnd, Parsed.mk.injEq]
      exact ⟨rfl, quiet, rfl⟩
    obtain ⟨body, program, _⟩ := (parseItems_clean_iff [] noEnd isEnd).1 clean
    exact ⟨body, program⟩
  · intro found
    obtain ⟨body, program⟩ := found
    rw [(parseItems_clean_iff [] noEnd isEnd).2 ⟨body, program, rfl⟩]
  · intro body program
    rw [(parseItems_clean_iff [] noEnd isEnd).2 ⟨body, program, rfl⟩]
    exact ⟨rfl, fun other otherProgram => program.unique otherProgram⟩

/-- A token on the first line. -/
private def mark (kind : TokenKind) (lexeme : String) (start stop : Nat) : Token :=
  { kind, lexeme, line := 1, span := ⟨start, stop⟩ }

private def endMark : Token := mark .endOfInput "" 0 0

/-- `if (a) print a; else b = a++;` -/
private def branching : List Token :=
  [mark (.keyword .ifWord) "if" 0 2, mark .leftParen "(" 3 4, mark .identifier "a" 4 5,
    mark .rightParen ")" 5 6, mark .identifier "print" 7 12, mark .identifier "a" 13 14,
    mark .semicolon ";" 14 15, mark (.keyword .elseWord) "else" 16 20, mark .identifier "b" 21 22,
    mark .assign "=" 23 24, mark .identifier "a" 25 26, mark .increment "++" 26 28,
    mark .semicolon ";" 28 29]

theorem branching_accepted :
    (∀ token ∈ branching, token.kind ≠ .endOfInput) ∧ endMark.kind = .endOfInput ∧
      (parseTokens (branching ++ [endMark])).errors = [] ∧
      ∃ body, Program IsName true body branching ∧
        (parseTokens (branching ++ [endMark])).statements = Sentence.stmts body ∧
          ∀ other, Program IsName true other branching → other = body := by
  obtain ⟨accepts, spells⟩ := parseTokens_accepts_exactly_programs branching endMark (by decide) rfl
  have quiet : (parseTokens (branching ++ [endMark])).errors = [] := by cbv
  obtain ⟨body, program⟩ := accepts.1 quiet
  exact ⟨by decide, rfl, quiet, body, program, spells body program⟩

/-- `(i)++;` -/
private def countedGroup : Sentence :=
  .expression (.counted (.group (mark .leftParen "(" 0 1) (.atom (mark .identifier "i" 1 2))
    (mark .rightParen ")" 2 3)) (mark .increment "++" 3 5)) (mark .semicolon ";" 5 6)

/-- Where anything primary can be counted up or down, a program is derived that does not parse. -/
theorem counted_group_derived_but_rejected :
    Program (fun _ => True) true [countedGroup] (Sentence.allTokens [countedGroup]) ∧
      (∀ token ∈ Sentence.allTokens [countedGroup], token.kind ≠ .endOfInput) ∧
      (parseTokens (Sentence.allTokens [countedGroup] ++ [endMark])).errors =
        [⟨.invalidIncrementTarget, mark .increment "++" 3 5⟩] := by
  refine ⟨⟨?_, rfl⟩, by decide, by cbv⟩
  intro sentence member
  obtain rfl : sentence = countedGroup := by simpa using member
  have name : Phrase.Derives (fun _ => True) .increment (.atom (mark .identifier "i" 1 2)) :=
    .uncounted (.atom rfl)
  exact .statement (.expression (.of_increment (.counted (.group rfl (.of_increment name) rfl)
    trivial rfl)) rfl (by decide))

end TinyScript
