import TinyScript.Proofs.CanonicalResult
import TinyScript.Proofs.Concatenation
import TinyScript.Proofs.ProperRun
import TinyScript.Proofs.Tiling
import TinyScript.Session

/-! Where the tokens of reported errors come from: from the text that was run or, for errors at run
time, from some text the session has run, however long ago. A function keeps the tokens it was declared
with, so those of all functions on the heap go into the invariant. -/
namespace TinyScript

/-- The span goes from one character of the source to another, and the text between them is the given
one. -/
def Span.Covers (span : Span) (source text : String) : Prop :=
  ∃ before after : String, source = before ++ text ++ after ∧
    span = ⟨before.utf8ByteSize, (before ++ text).utf8ByteSize⟩

/-- The token is one of the source, or it was made up for one of its print statements, in the place of
`print` or of the semicolon. -/
inductive Token.RootedIn (source : String) : Token → Prop where
  | scanned {token : Token} (listed : token ∈ scanTokens source)
      (covers : token.span.Covers source token.lexeme) : RootedIn source token
  | println {keyword semicolon : Token} {value : Expr} (listed : keyword ∈ scanTokens source)
      (covers : keyword.span.Covers source "print")
      (printed : printStatement keyword value semicolon ∈ Stmt.allParts (parse source).statements) :
      RootedIn source (.synthetic .identifier "println" keyword)
  | paren {keyword semicolon : Token} {value : Expr} (listed : semicolon ∈ scanTokens source)
      (covers : semicolon.span.Covers source ";")
      (printed : printStatement keyword value semicolon ∈ Stmt.allParts (parse source).statements) :
      RootedIn source (.synthetic .rightParen ")" semicolon)

section Texts

variable {source : String}

theorem covers_of_item {item : Item} (member : item ∈ scan source) :
    item.span.Covers source item.lexeme := by
  obtain ⟨before, after, shape, span, _⟩ := Item.placedIn_of_mem_scan member
  exact ⟨before, after, shape, span⟩

theorem item_of_token {token : Token} (listed : token ∈ scanTokens source) :
    .ok token ∈ scan source := by
  obtain ⟨item, member, isToken⟩ := List.mem_filterMap.1 listed
  cases item with
  | ok other =>
    cases isToken
    exact member
  | error error => cases isToken

theorem covers_of_token {token : Token} (listed : token ∈ scanTokens source) :
    token.span.Covers source token.lexeme :=
  covers_of_item (item_of_token listed)

theorem covers_of_lexicalError {error : LexicalError} (listed : error ∈ (parse source).lexicalErrors) :
    error.span.Covers source error.lexeme := by
  have counted : Item.errorsUpToEnd (scan source) = (parse source).lexicalErrors :=
    (Feed.ofItems_upToEnd (scan source)).2
  rw [← counted, Item.errorsUpToEnd, Item.upToEnd_scan] at listed
  obtain ⟨item, member, isError⟩ := List.mem_filterMap.1 listed
  cases item with
  | ok token => cases isError
  | error other =>
    cases isError
    exact covers_of_item member

theorem lexeme_of_semicolon {token : Token} (listed : token ∈ scanTokens source)
    (mark : token.kind = .semicolon) : token.lexeme = ";" := by
  obtain ⟨items, final, shape, isEnd, scanned⟩ := (Scanner.ofText source).run_scanned
  have member : (.ok token : Item) ∈ items ++ [.ok final] := shape ▸ item_of_token listed
  rcases List.mem_append.1 member with inside | last
  · have spelled := (scanned token inside).spelled (by rw [mark]; rfl)
    rw [spelled.lexeme, mark]
    rfl
  · obtain rfl : token = final := by simpa using last
    rw [isEnd] at mark
    cases mark

/-- The tokens that are parsed are those of the text, its end token included. -/
theorem parse_fits (source : String) :
    (∀ statement ∈ (parse source).statements, statement.Fits (· ∈ scanTokens source)) ∧
      ∀ error ∈ (parse source).errors, error.token ∈ scanTokens source := by
  refine parseItems_fits (scan source) ?_ ?_
  · intro token member
    rw [scanTokens_eq_feed]
    exact List.mem_append_left _ member
  · obtain ⟨items, final, ended, isEnd, _⟩ := (Scanner.ofText source).run_scanned
    obtain ⟨last, found⟩ := Feed.final?_of_end items isEnd
    have same : (Feed.ofItems (scan source)).final? = some last := by rw [← found, ← ended]; rfl
    rw [scanTokens_eq_feed, Feed.final, same]
    simp

theorem Token.StemsFrom.rooted {token : Token}
    (stems : token.StemsFrom (· ∈ scanTokens source) (Stmt.allParts (parse source).statements)) :
    token.RootedIn source := by
  cases stems with
  | own listed => exact .scanned listed (covers_of_token listed)
  | println printed =>
    obtain ⟨value, part⟩ := printed.listed
    refine .println printed.opens ?_ part
    exact printed.word.2 ▸ covers_of_token printed.opens
  | paren printed =>
    obtain ⟨value, part⟩ := printed.listed
    refine .paren printed.closes ?_ part
    exact lexeme_of_semicolon printed.closes printed.mark ▸ covers_of_token printed.closes

/-- All tokens in the statements of a text are rooted in it. -/
theorem parse_proper (source : String) :
    ∀ statement ∈ (parse source).statements, statement.Proper (Token.RootedIn source) := by
  intro statement member
  have fits := (parse_fits source).1 statement member
  refine ⟨fits.shape, fun token inside => ?_⟩
  exact (fits.within (Stmt.parts_subset member) token inside).rooted

end Texts

/-- The token is rooted in one of the sources, and that one has no errors. -/
def Token.RootedInOne (sources : List String) (token : Token) : Prop :=
  ∃ source ∈ sources, (parse source).hasErrors = false ∧ token.RootedIn source

namespace Session

/-- The session after it has run texts one after another, whatever came of them. -/
def afterTexts (session : Session) (texts : List (Nat × String × String)) : Session :=
  texts.foldl (fun session text => (session.run text.1 text.2.1 text.2.2).2) session

/-- A run fails on the errors of its text or, if there are none, on the error of the program. -/
theorem run_failed_iff {session : Session} {fuel : Nat} {path source : String} {failure : Failure} :
    (session.run fuel path source).1 = .failed failure ↔
      ((parse source).hasErrors = true ∧
        failure = .malformed path source (parse source).lexicalErrors (parse source).errors) ∨
      ((parse source).hasErrors = false ∧ ∃ error, failure = .aborted path source error ∧
        (interpret fuel (parse source).statements session.machine).1 = .failed error) := by
  unfold run runParsed
  cases (parse source).hasErrors with
  | true => simp [eq_comm]
  | false =>
    rcases interpret fuel (parse source).statements session.machine with ⟨outcome, machine⟩
    cases outcome <;> simp [eq_comm]

variable {own : Token → Prop}

theorem run_proper {session : Session} (kept : session.machine.heap.Proper own) (fuel : Nat)
    (path : String) {source : String}
    (proper : (parse source).hasErrors = false →
      ∀ statement ∈ (parse source).statements, statement.Proper own) :
    (session.run fuel path source).2.machine.heap.Proper own := by
  unfold run runParsed
  cases clean : (parse source).hasErrors with
  | true => exact kept
  | false =>
    have later := (interpret_proper fuel (proper clean) kept).1
    revert later
    rcases interpret fuel (parse source).statements session.machine with ⟨outcome, machine⟩
    cases outcome <;> exact id

/-- The statements of a text without errors have tokens that are rooted in one of the texts. -/
theorem proper_of_clean {sources : List String} {source : String} (listed : source ∈ sources)
    (clean : (parse source).hasErrors = false) :
    ∀ statement ∈ (parse source).statements, statement.Proper (Token.RootedInOne sources) := by
  intro statement member
  obtain ⟨shape, known⟩ := parse_proper source statement member
  exact ⟨shape, fun token inside => ⟨source, listed, clean, known token inside⟩⟩

theorem afterTexts_proper {sources : List String} {texts : List (Nat × String × String)}
    (listed : ∀ text ∈ texts, text.2.2 ∈ sources) {session : Session}
    (kept : session.machine.heap.Proper (Token.RootedInOne sources)) :
    (session.afterTexts texts).machine.heap.Proper (Token.RootedInOne sources) := by
  induction texts generalizing session with
  | nil => exact kept
  | cons text others ih =>
    obtain ⟨here, later⟩ := List.forall_mem_cons.1 listed
    exact ih later (run_proper kept text.1 text.2.1 (proper_of_clean here))

end Session

/-- Every error that a session reports has a token of a text it has run. Errors of a text that is no
program have tokens of that text. An error at run time has a token of one of the texts up to then, and
of one without errors, or a token made up for a print statement there. All their spans cover what they
should. -/
theorem error_tokens_rooted (readings : Nat → Int64) (earlier : List (Nat × String × String))
    (fuel : Nat) (path source : String) :
    (∀ shownPath shown lexical errors,
      (((Session.start readings).afterTexts earlier).run fuel path source).1 =
          .failed (.malformed shownPath shown lexical errors) →
        (∀ error ∈ lexical, error.span.Covers source error.lexeme) ∧
          ∀ error ∈ errors, error.token ∈ scanTokens source ∧
            error.token.span.Covers source error.token.lexeme) ∧
    (∀ shownPath shown error,
      (((Session.start readings).afterTexts earlier).run fuel path source).1 =
          .failed (.aborted shownPath shown error) →
        ∃ text ∈ earlier.map (·.2.2) ++ [source],
          (parse text).hasErrors = false ∧ error.token.RootedIn text) := by
  constructor
  · intro shownPath shown lexical errors failed
    rcases Session.run_failed_iff.1 failed with ⟨_, same⟩ | ⟨_, _, wrong, _⟩
    · cases same
      refine ⟨fun error => covers_of_lexicalError, ?_⟩
      intro error member
      have listed := (parse_fits source).2 error member
      exact ⟨listed, covers_of_token listed⟩
    · cases wrong
  · intro shownPath shown error failed
    rcases Session.run_failed_iff.1 failed with ⟨_, wrong⟩ | ⟨clean, _, same, ran⟩
    · cases wrong
    · cases same
      let sources := earlier.map (·.2.2) ++ [source]
      have before : ∀ text ∈ earlier, text.2.2 ∈ sources := fun text member =>
        List.mem_append_left _ (List.mem_map_of_mem member)
      have last : source ∈ sources := List.mem_append_right _ List.mem_cons_self
      have kept : ((Session.start readings).afterTexts earlier).machine.heap.Proper
          (Token.RootedInOne sources) :=
        Session.afterTexts_proper before (Machine.start_proper readings)
      exact ((interpret_proper fuel (Session.proper_of_clean last clean) kept).2 error ran).place

private def shadowing : String := "fun f(println) \x7b print 'ff'; \x7d"

private def afterShadowing : Session :=
  (Session.start fun _ => 0).afterTexts [(9, "first", shadowing)]

private def madeUpParen : Token := { kind := .rightParen, lexeme := ")", line := 1, span := ⟨27, 28⟩ }

/-- In a function of an earlier text, `print` stands for a call of a parameter. The call fails at the
parenthesis made up for it, in the place of the semicolon of that text. -/
theorem shadowed_println_rooted :
    (afterShadowing.run 9 "second" "f(1);").1 =
        .failed (.aborted "second" "f(1);" ⟨.notCallable, madeUpParen⟩) ∧
      ∃ text ∈ [shadowing, "f(1);"], (parse text).hasErrors = false ∧ madeUpParen.RootedIn text := by
  have clean : (parse "f(1);").hasErrors = false := by decide +kernel
  have ran : (interpret 9 (parse "f(1);").statements afterShadowing.machine).1 =
      .failed ⟨.notCallable, madeUpParen⟩ := by decide +kernel
  have failed : (afterShadowing.run 9 "second" "f(1);").1 =
      .failed (.aborted "second" "f(1);" ⟨.notCallable, madeUpParen⟩) :=
    Session.run_failed_iff.2 (.inr ⟨clean, _, rfl, ran⟩)
  obtain ⟨_, aborted⟩ :=
    error_tokens_rooted (fun _ => 0) [(9, "first", shadowing)] 9 "second" "f(1);"
  exact ⟨failed, aborted _ _ _ failed⟩

end TinyScript
