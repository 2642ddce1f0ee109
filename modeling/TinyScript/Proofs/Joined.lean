import TinyScript.Proofs.LikeStatement
import TinyScript.Proofs.Reparse
import TinyScript.Proofs.Seam

/-! Programs put together from two texts with a newline between them. If the first has no errors,
the whole is parsed to what each part is parsed to, the second only further down. -/
namespace TinyScript

open Phrase

namespace Grammar

/-- A declaration that is read without errors is the first of the statements. -/
theorem declarations_of_reads {final : Token} {tokens rest : List Token} {statement : Stmt}
    (reads : (declaration final tokens).Reads statement rest) :
    (declarations final false tokens).statements =
        statement :: (declarations final false rest).statements ∧
      (declarations final false tokens).errors = (declarations final false rest).errors := by
  have longer := reads.length_lt
  obtain ⟨shorter, outcome⟩ := reads
  cases tokens with
  | nil => simp at longer
  | cons first after =>
    rw [declarations.eq_def final false (first :: after)]
    simp [outcome]

/-- In front of anything but an `else`, the declarations of a program are read as they are, and
parsing goes on behind them. -/
theorem declarations_append (final : Token) {body : List Sentence} {rest : List Token}
    (derives : ∀ sentence ∈ body, sentence.Derives IsName true .declaration)
    (noElse : starts (· == .keyword .elseWord) rest = false) :
    (declarations final false (Sentence.allTokens body ++ rest)).statements =
        Sentence.stmts body ++ (declarations final false rest).statements ∧
      (declarations final false (Sentence.allTokens body ++ rest)).errors =
        (declarations final false rest).errors := by
  induction body with
  | nil => exact ⟨rfl, rfl⟩
  | cons sentence others ih =>
    have othersDerive : ∀ other ∈ others, other.Derives IsName true .declaration :=
      fun other member => derives other (by simp [member])
    have front : (declaration final (sentence.tokens ++ (Sentence.allTokens others ++ rest))).Reads
        sentence.stmt (Sentence.allTokens others ++ rest) :=
      sentence_stands (derives sentence (by simp)) _ fun _ =>
        not_starts_allTokens othersDerive rfl noElse
    obtain ⟨statements, errors⟩ := declarations_of_reads front
    obtain ⟨later, laterErrors⟩ := ih othersDerive
    rw [Sentence.allTokens, Sentence.stmts, List.append_assoc, statements, errors, later,
      laterErrors]
    exact ⟨rfl, rfl⟩

end Grammar

namespace Feed

theorem ofItems_moved (bytes lines : Nat) (items : List Item) :
    ofItems (items.map (Item.moved bytes lines)) =
      { tokens := (ofItems items).tokens.map (Token.moved bytes lines)
        final? := (ofItems items).final?.map (Token.moved bytes lines)
        errors := (ofItems items).errors.map (LexicalError.moved bytes lines)
        unread := (ofItems items).unread.map (Item.moved bytes lines) } := by
  induction items with
  | nil => rfl
  | cons item others ih =>
    cases item with
    | error error => simp [Item.moved, ofItems, ih]
    | ok token =>
      have kind : (token.moved bytes lines).kind = token.kind := rfl
      simp only [List.map_cons, Item.moved, ofItems, kind, ih]
      split <;> rfl

theorem starts_moved (bytes lines : Nat) (kind : TokenKind) (tokens : List Token) :
    starts (· == kind) (tokens.map (Token.moved bytes lines)) = starts (· == kind) tokens := by
  cases tokens with
  | nil => rfl
  | cons first others => rfl

theorem final?_of_end (items : List Item) {final : Token} (isEnd : final.kind = .endOfInput) :
    ∃ last, (ofItems (items ++ [.ok final])).final? = some last := by
  induction items with
  | nil => exact ⟨final, by simp [ofItems, isEnd]⟩
  | cons item others ih =>
    obtain ⟨last, found⟩ := ih
    cases item with
    | error error => exact ⟨last, by simp [ofItems, found]⟩
    | ok token =>
      by_cases ends : token.kind = .endOfInput
      · exact ⟨token, by simp [ofItems, ends]⟩
      · exact ⟨last, by simp [ofItems, ends, found]⟩

end Feed

theorem parse_of_feed {source : String} {tokens : List Token} {final : Token}
    {errors : List LexicalError} {unread : List Item}
    (feed : Feed.ofItems (scan source) = ⟨tokens, some final, errors, unread⟩) :
    parse source = ⟨(Grammar.declarations final false tokens).statements,
      (Grammar.declarations final false tokens).errors, errors⟩ := by
  unfold parse parseItems
  rw [feed]
  rfl

theorem ends_of_scan {source : String} {tokens : List Token} {final : Token}
    (scanned : scan source = tokens.map .ok ++ [.ok final]) :
    (∀ token ∈ tokens, token.kind ≠ .endOfInput) ∧ final.kind = .endOfInput := by
  obtain ⟨items, last, same, isEnd, areScanned⟩ := (Scanner.ofText source).run_scanned
  have whole : tokens.map .ok ++ [.ok final] = items ++ [.ok last] := scanned.symm.trans same
  obtain ⟨rfl, final_eq⟩ := List.append_inj' whole rfl
  obtain rfl : final = last := by simpa using final_eq
  exact ⟨fun token member => (areScanned token (List.mem_map.2 ⟨token, member, rfl⟩)).ne_end, isEnd⟩

/-- The whole is parsed to the statements of the first text and, unless the second starts with
`else`, to those of the second with its errors, all further down. -/
theorem parse_joined (same : Correspondence) {first second : String}
    (clean : (parse first).hasErrors = false)
    (moves : ∀ token, same.tokens token
      (token.moved (first.utf8ByteSize + 1) (first.toList.count '\n' + 1)))
    (noElse : starts (· == .keyword .elseWord) (Feed.ofItems (scan second)).tokens = false) :
    ∃ statements errors,
      parse (first ++ "\n" ++ second) = ⟨(parse first).statements ++ statements, errors,
        (parse second).lexicalErrors.map
          (LexicalError.moved (first.utf8ByteSize + 1) (first.toList.count '\n' + 1))⟩ ∧
      List.Forall₂ (Stmt.Like same.likeness) (parse second).statements statements ∧
      List.Forall₂ (SyntaxError.Like same) (parse second).errors errors := by
  obtain ⟨tokens, final, body, scanned, program, statements, _⟩ := program_of_clean clean
  obtain ⟨items, last, whole, isEnd, _⟩ := (Scanner.ofText second).run_scanned
  have ended : scan second = items ++ [.ok last] := whole
  obtain ⟨closing, found⟩ := Feed.final?_of_end items isEnd
  rw [← ended] at found
  rcases feed : Feed.ofItems (scan second) with ⟨rest, final?, faults, unread⟩
  rw [feed] at found noElse
  subst found
  have split := scan_joined scanned second
  generalize first.utf8ByteSize + 1 = bytes, first.toList.count '\n' + 1 = lines at split moves ⊢
  have joined : Feed.ofItems (scan (first ++ "\n" ++ second)) =
      ⟨tokens ++ rest.map (Token.moved bytes lines), some (closing.moved bytes lines),
        faults.map (LexicalError.moved bytes lines), unread.map (Item.moved bytes lines)⟩ := by
    rw [split, Feed.ofItems_append (ends_of_scan scanned).1, Feed.ofItems_moved, feed]
    rfl
  have ahead : List.Forall₂ same.tokens rest (rest.map (Token.moved bytes lines)) :=
    List.forall₂_map_right_iff.2 (List.forall₂_same.2 fun token _ => moves token)
  have parsed := Grammar.declarations_alike (moves closing) false rest ahead
  have front := Grammar.declarations_append (closing.moved bytes lines) program.derives
    ((Feed.starts_moved bytes lines _ rest).trans noElse)
  rw [program.spelled, ← statements] at front
  rw [parse_of_feed feed, parse_of_feed joined, front.1, front.2]
  exact ⟨_, _, rfl, parsed.statements, parsed.errors⟩

end TinyScript
