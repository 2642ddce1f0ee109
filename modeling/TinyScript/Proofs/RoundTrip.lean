import TinyScript.Proofs.Acceptance
import TinyScript.Proofs.PrintedText
import TinyScript.Proofs.Scanned
import TinyScript.Proofs.SentenceOfTree

/-! The text of a canonical program parses to that program: the scanner finds the tokens of the
program, these have a derivation that spells it, and parsing finds every derivation. -/
namespace TinyScript

open Phrase

/-- The tokens that the scanner finds in a text, places aside. -/
theorem Scans.scan {text : String} {printed : List Token} (scans : Scans text.toList printed) :
    ∃ (tokens : List Token) (final : Token),
      TinyScript.scan text = tokens.map .ok ++ [.ok final] ∧ Agrees tokens printed ∧
      final.kind = .endOfInput ∧ ∀ token ∈ tokens, token.Scanned := by
  obtain ⟨tokens, final, same, agrees, isEnd⟩ := scans.run (.ofText text) rfl
  refine ⟨tokens, final, same, agrees, isEnd, ?_⟩
  obtain ⟨items, last, again, _, scanned⟩ := (Scanner.ofText text).run_scanned
  have front : tokens.map .ok = items := List.append_inj_left' (same.symm.trans again) rfl
  intro token member
  exact scanned token (front ▸ List.mem_map.2 ⟨token, member, rfl⟩)

/-- The tokens that the scanner finds in the text of a program, places aside. -/
theorem scan_programText {program : List Stmt}
    (canonical : ∀ statement ∈ program, statement.Canonical .declaration) :
    ∃ (tokens : List Token) (final : Token),
      scan (programText program) = tokens.map .ok ++ [.ok final] ∧
      Agrees tokens (Stmt.printeds program) ∧ final.kind = .endOfInput ∧
      ∀ token ∈ tokens, token.Scanned :=
  (scans_programText canonical).scan

/-- The text of a canonical expression parses to that expression up to the places of its tokens, and
nothing in it is malformed. -/
theorem parseExpression_text {value : Expr} (canonical : value.Canonical .assignment) :
    scanErrors value.text = [] ∧
      ∃ expression, parseExpression value.text = .ok expression ∧ expression.bare = value.bare := by
  have scans : Scans value.text.toList value.printed := by
    simpa using canonical.writtenAs [] [] trivial .nil
  obtain ⟨tokens, final, scanned, agrees, isEnd, areScanned⟩ := scans.scan
  obtain ⟨phrase, derives, rfl, same⟩ := canonical.derived tokens agrees
  have noEnd : ∀ token ∈ phrase.tokens, token.kind ≠ .endOfInput := fun token member =>
    (areScanned token member).ne_end
  constructor
  · simp [scanErrors, scanned, Item.error?]
  · have stands : Grammar.Stands final .assignment phrase := Grammar.stands_of_derives derives
    have reads := stands.reads [] rfl
    rw [List.append_nil] at reads
    obtain ⟨_, found⟩ : (Grammar.expression final phrase.tokens).Reads phrase.expr [] := reads
    refine ⟨phrase.expr, ?_, same⟩
    rw [parseExpression, scanned, Feed.ofItems_closed [] noEnd isEnd]
    simp only [Feed.final, Option.getD_some, found]

/-- Tokens that agree with those of a silent canonical program spell that program. -/
theorem program_of_agrees {printing : Bool} {program : List Stmt} {tokens : List Token}
    (canonical : ∀ statement ∈ program, statement.Canonical .declaration)
    (silent : printing = true → Stmt.allSilent program = true)
    (agrees : Agrees tokens (Stmt.printeds program)) :
    ∃ body, Program IsName printing body tokens ∧
      Stmt.bares (Sentence.stmts body) = Stmt.bares program := by
  obtain ⟨body, derives, spelled, same⟩ :=
    body_derived (fun statement member => (canonical statement member).derived) silent agrees
  exact ⟨body, ⟨derives, spelled⟩, same⟩

/-- What the text of a silent canonical program parses to. -/
theorem parse_programText {program : List Stmt}
    (canonical : ∀ statement ∈ program, statement.Canonical .declaration)
    (silent : Stmt.allSilent program = true) :
    ∃ statements, parse (programText program) = ⟨statements, [], []⟩ ∧
      Stmt.bares statements = Stmt.bares program := by
  obtain ⟨tokens, final, scanned, agrees, isEnd, areScanned⟩ := scan_programText canonical
  obtain ⟨body, spelled, same⟩ := program_of_agrees canonical (fun _ => silent) agrees
  refine ⟨Sentence.stmts body, ?_, same⟩
  rw [parse, scanned]
  exact (parseItems_clean_iff [] (fun token member => (areScanned token member).ne_end) isEnd).2
    ⟨body, spelled, rfl⟩

/-- The text of a canonical program parses without an error, and gives the program back up to the
places of its tokens. -/
theorem parse_programText_of_canonical {program : List Stmt} (canonical : CanonicalProgram program) :
    (parse (programText program)).errors = [] ∧ (parse (programText program)).lexicalErrors = [] ∧
      Stmt.bares (parse (programText program)).statements = Stmt.bares program := by
  obtain ⟨statements, clean, same⟩ := parse_programText canonical.canonical canonical.silent
  rw [clean]
  exact ⟨rfl, rfl, same⟩

private def name (lexeme : String) : Token :=
  { kind := .identifier, lexeme, line := 0, span := ⟨0, 0⟩ }

/-- `if (print(a)) while (a-- - - -a > 0) { } else a = print++("x", 'FF');` -/
private def sample : Stmt :=
  .branch (.call (.var (name "print")) (.fixed .rightParen) [.var (name "a")])
    (.loop (.binary (.binary (.increment (name "a") (.fixed .decrement)) (.fixed .minus)
      (.unary (.fixed .minus) (.unary (.fixed .minus) (.var (name "a"))))) (.fixed .greater)
      (.literal (.int 0))) (.block []))
    (some (.expression (.assign (name "a") (.call (.increment (name "print") (.fixed .increment))
      (.fixed .rightParen) [.literal (.string "x"), .literal (.bytes [255])]))))

private theorem sample_canonical : CanonicalProgram [sample] := by
  have spelled (kind : TokenKind) : (Token.fixed kind).Spelled := ⟨rfl, rfl⟩
  have isA : (name "a").Named := ⟨rfl, by decide, rfl⟩
  have isPrint : (name "print").Named := ⟨rfl, by decide, rfl⟩
  have a : Expr.Canonical .primary (.var (name "a")) := .var isA
  have printed : Expr.Canonical .call
      (.call (.var (name "print")) (.fixed .rightParen) [.var (name "a")]) :=
    .call (.uncalled (.uncounted (.var isPrint))) rfl (spelled _) (by simpa using a.of_primary)
      (by decide)
  have negated : Expr.Canonical .unary
      (.unary (.fixed .minus) (.unary (.fixed .minus) (.var (name "a")))) :=
    .unary rfl (spelled _) (.unary rfl (spelled _) (.unsigned (.uncalled (.uncounted a))))
  have counted (sign : TokenKind) (counts : isIncrement sign = true) {target : Token}
      (named : target.Named) : Expr.Canonical .call (.increment target (.fixed sign)) :=
    .uncalled (.increment named counts (spelled _))
  have difference := Expr.Canonical.join (show Level.term.joins .minus = true from rfl)
    (spelled .minus) (.of_unary (.unsigned (counted .decrement rfl isA)) .term)
    (negated.of_unary .factor)
  have zero : Expr.Canonical .primary (.literal (.int 0)) := .literal (show (0 : Int64) ≤ 0 by decide)
  have smaller : Expr.Canonical (.chain .comparison) _ := .operand difference
  have comparison := Expr.Canonical.join (show Level.comparison.joins .greater = true from rfl)
    (spelled .greater) smaller
    (.of_unary (.unsigned (.uncalled (.uncounted zero))) .term)
  have strings : Expr.Canonical .primary (.literal (.string "x")) :=
    .literal (show '"' ∉ "x".toList by decide)
  have bytes : Expr.Canonical .primary (.literal (.bytes [255])) := .literal trivial
  have called : Expr.Canonical .call (.call (.increment (name "print") (.fixed .increment))
      (.fixed .rightParen) [.literal (.string "x"), .literal (.bytes [255])]) :=
    .call (counted .increment rfl isPrint) rfl (spelled _)
      (by simpa using ⟨strings.of_primary, bytes.of_primary⟩) (by decide)
  refine ⟨?_, by decide⟩
  intro statement member
  obtain rfl := List.mem_singleton.1 member
  exact .statement (.choice printed.of_call
    (.loop (.chained (.operand (.operand (.operand comparison)))) (.block (by simp))) rfl
    (.expression (.assign isA called.of_call)))

theorem parse_sample :
    CanonicalProgram [sample] ∧ (parse (programText [sample])).errors = [] ∧
      (parse (programText [sample])).lexicalErrors = [] ∧
      Stmt.bares (parse (programText [sample])).statements = Stmt.bares [sample] :=
  ⟨sample_canonical, parse_programText_of_canonical sample_canonical⟩

end TinyScript
