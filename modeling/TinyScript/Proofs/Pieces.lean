import TinyScript.Proofs.Joined
import TinyScript.Proofs.Positions
import TinyScript.Session

/-! A program run in pieces, one text after another in the same session, does what it does as a whole,
with newlines between the pieces. -/
namespace TinyScript

open Phrase

/-- Tokens that differ in nothing but where they stand. -/
def Correspondence.displaced : Correspondence where
  tokens := Token.SameName
  kind_eq same := same.kind
  lexeme_eq same := same.lexeme
  literal_eq same := same.literal
  synthetic _ _ _ := ⟨rfl, rfl, rfl⟩

/-- Everything is the same but for where the tokens stand. -/
def View.displaced : View := Correspondence.displaced.likeness.everywhere

theorem Correspondence.displaced_reflexive : displaced.likeness.Reflexive where
  names _ := ⟨rfl, rfl, rfl⟩
  marks _ := ⟨rfl, rfl, rfl⟩

namespace Run

variable (execute : Stmt → Run Flow)

theorem sequence_cons (first : Stmt) (others : List Stmt) (machine : Machine) :
    sequence execute (first :: others) machine =
      match execute first machine with
      | (.done .normal, reached) => sequence execute others reached
      | ended => ended := by
  change Run.bind (execute first) _ machine = _
  unfold Run.bind
  rcases execute first machine with ⟨outcome, reached⟩
  cases outcome with
  | done flow => cases flow <;> rfl
  | failed error => rfl
  | exhausted => rfl

/-- Statements behind others are run if those end in order. -/
theorem sequence_append (front back : List Stmt) (machine : Machine) :
    sequence execute (front ++ back) machine =
      match sequence execute front machine with
      | (.done .normal, reached) => sequence execute back reached
      | ended => ended := by
  induction front generalizing machine with
  | nil => rfl
  | cons first others ih =>
    rw [List.cons_append, sequence_cons, sequence_cons]
    rcases execute first machine with ⟨outcome, reached⟩
    cases outcome with
    | done flow =>
      cases flow with
      | normal => exact ih reached
      | returned value => rfl
    | failed error => rfl
    | exhausted => rfl

end Run

theorem not_else_of_clean {source : String} (clean : (parse source).hasErrors = false) :
    starts (· == .keyword .elseWord) (Feed.ofItems (scan source)).tokens = false := by
  obtain ⟨tokens, final, body, scanned, program, _, _⟩ := program_of_clean clean
  obtain ⟨noEnd, isEnd⟩ := ends_of_scan scanned
  have front : starts (· == .keyword .elseWord) (Sentence.allTokens body ++ []) = false :=
    Grammar.not_starts_allTokens program.derives rfl rfl
  rw [scanned, Feed.ofItems_closed [] noEnd isEnd, ← program.spelled]
  simpa using front

/-- Two texts without errors make a text without errors, with the statements of both. -/
theorem parse_joined_clean {first second : String} (cleanFirst : (parse first).hasErrors = false)
    (cleanSecond : (parse second).hasErrors = false) :
    ∃ statements, parse (first ++ "\n" ++ second) = ⟨(parse first).statements ++ statements, [], []⟩ ∧
      List.Forall₂ (Stmt.Like View.displaced.toLikeness) (parse second).statements statements := by
  obtain ⟨quiet, wellFormed⟩ := Parsed.hasErrors_eq_false.1 cleanSecond
  obtain ⟨statements, errors, joined, alike, noted⟩ := parse_joined .displaced cleanFirst
    (fun token => ⟨rfl, rfl, rfl⟩) (not_else_of_clean cleanSecond)
  rw [quiet] at noted
  cases noted
  exact ⟨statements, by rw [joined, wellFormed, List.map_nil], alike⟩

/-- Both runs end well, or both are aborted by the same error but for where its token stands, or
neither ends. -/
inductive SameEnding : Outcome Failure Unit → Outcome Failure Unit → Prop where
  | done : SameEnding (.done ()) (.done ())
  | aborted {error error' : RuntimeError} (path source path' source' : String)
      (same : error.Like View.displaced.toLikeness error') :
      SameEnding (.failed (.aborted path source error)) (.failed (.aborted path' source' error'))
  | exhausted : SameEnding .exhausted .exhausted

namespace Session

variable (fuel : Nat) (session : Session)

/-- How the statements of a source end on the machine of the session, and with which machine. -/
def flow (source : String) : Outcome RuntimeError Flow × Machine :=
  Run.sequence (execute fuel) (parse source).statements session.machine

/-- Whether the source ends by a `return` outside of any function. -/
def returns (source : String) : Bool :=
  match (session.flow fuel source).1 with
  | .done (.returned _) => true
  | _ => false

/-- Runs texts with their paths one after another. One that fails is the last, and so is one that
returns. -/
def runPieces : List (String × String) → Session → Outcome Failure Unit × Session
  | [], session => (.done (), session)
  | (path, text) :: others, session =>
    match session.run fuel path text with
    | (.done (), after) =>
      if session.returns fuel text then (.done (), after) else runPieces others after
    | ended => ended

/-- The machines are the same but for where the tokens inside functions stand. -/
def SameState (session other : Session) : Prop :=
  session.machine.Like View.displaced other.machine

/-- What a run tells of how its statements ended. -/
def ending (path source : String) : Outcome RuntimeError Flow → Outcome Failure Unit
  | .done _ => .done ()
  | .failed error => .failed (.aborted path source error)
  | .exhausted => .exhausted

variable {fuel session}

theorem run_of_clean {source : String} (clean : (parse source).hasErrors = false) (path : String) :
    session.run fuel path source =
      (ending path source (session.flow fuel source).1, ⟨(session.flow fuel source).2⟩) := by
  have interpreted : interpret fuel (parse source).statements session.machine =
      Run.bind (Run.sequence (execute fuel) (parse source).statements) (fun _ => Run.pure ())
        session.machine := rfl
  unfold run runParsed flow
  rw [clean, interpreted, Run.bind]
  rcases Run.sequence (execute fuel) (parse source).statements session.machine with
    ⟨outcome, reached⟩
  cases outcome <;> rfl

theorem sameEnding_of_like {outcome outcome' : Outcome RuntimeError Flow}
    (alike : outcome.Like View.displaced.toLikeness (Flow.Like View.displaced) outcome')
    (path source path' source' : String) :
    SameEnding (ending path source outcome) (ending path' source' outcome') := by
  cases alike with
  | done _ => exact .done
  | failed same => exact .aborted path source path' source' same
  | exhausted => exact .exhausted

/-- A run that ends well without a `return` of its own has run all its statements. -/
theorem flow_of_run {source path : String} (clean : (parse source).hasErrors = false)
    (done : (session.run fuel path source).1 = .done ())
    (goesOn : session.returns fuel source = false) :
    (session.flow fuel source).1 = .done .normal := by
  rw [run_of_clean clean] at done
  unfold returns at goesOn
  revert done goesOn
  cases (session.flow fuel source).1 with
  | done flow => cases flow <;> simp
  | failed error => simp [ending]
  | exhausted => simp [ending]

/-- The whole of two texts runs the second if the first ends in order. -/
theorem flow_joined {first second : String} (cleanFirst : (parse first).hasErrors = false)
    (cleanSecond : (parse second).hasErrors = false) :
    ∃ statements,
      List.Forall₂ (Stmt.Like View.displaced.toLikeness) (parse second).statements statements ∧
      ∀ session : Session, session.flow fuel (first ++ "\n" ++ second) =
        match session.flow fuel first with
        | (.done .normal, reached) => Run.sequence (execute fuel) statements reached
        | ended => ended := by
  obtain ⟨statements, joined, alike⟩ := parse_joined_clean cleanFirst cleanSecond
  refine ⟨statements, alike, fun session => ?_⟩
  unfold flow
  rw [joined, Run.sequence_append]

theorem clean_joined {first second : String} (cleanFirst : (parse first).hasErrors = false)
    (cleanSecond : (parse second).hasErrors = false) :
    (parse (first ++ "\n" ++ second)).hasErrors = false := by
  obtain ⟨statements, joined, _⟩ := parse_joined_clean cleanFirst cleanSecond
  rw [joined]
  rfl

/-- If the first of two texts does not end in order, the whole ends just as it does. -/
theorem run_joined_of_stopped {first second : String}
    (cleanFirst : (parse first).hasErrors = false) (cleanSecond : (parse second).hasErrors = false)
    (stopped : (session.flow fuel first).1 ≠ .done .normal) (path : String) :
    session.run fuel path (first ++ "\n" ++ second) =
      (ending path (first ++ "\n" ++ second) (session.flow fuel first).1,
        ⟨(session.flow fuel first).2⟩) := by
  obtain ⟨_, _, joined⟩ := flow_joined cleanFirst cleanSecond
  have same : session.flow fuel (first ++ "\n" ++ second) = session.flow fuel first := by
    rw [joined]
    split
    · next reached same => exact absurd (congrArg Prod.fst same) stopped
    · rfl
  rw [run_of_clean (clean_joined cleanFirst cleanSecond), same]

/-- A run that is aborted stops at the statement that fails. -/
theorem flow_of_aborted {source path : String} (clean : (parse source).hasErrors = false)
    {error : RuntimeError} {after : Session}
    (aborted : session.run fuel path source = (.failed (.aborted path source error), after)) :
    session.flow fuel source = (.failed error, after.machine) := by
  rw [run_of_clean clean] at aborted
  revert aborted
  rcases session.flow fuel source with ⟨outcome, reached⟩
  cases outcome with
  | done flow => simp [ending]
  | failed other =>
    intro aborted
    simp only [ending, Prod.mk.injEq, Outcome.failed.injEq, Failure.aborted.injEq] at aborted
    obtain ⟨⟨_, _, rfl⟩, rfl⟩ := aborted
    rfl
  | exhausted => simp [ending]

theorem flow_of_returns {source : String} (returned : session.returns fuel source = true) :
    ∃ value, (session.flow fuel source).1 = .done (.returned value) := by
  unfold returns at returned
  split at returned
  · next value same => exact ⟨value, same⟩
  · simp at returned

theorem run_joined_alike {first second : String} (cleanFirst : (parse first).hasErrors = false)
    (cleanSecond : (parse second).hasErrors = false)
    (ended : (session.flow fuel first).1 = .done .normal) (path path' : String) :
    let between : Session := ⟨(session.flow fuel first).2⟩
    SameEnding (between.run fuel path second).1
        (session.run fuel path' (first ++ "\n" ++ second)).1 ∧
      (between.run fuel path second).2.SameState
        (session.run fuel path' (first ++ "\n" ++ second)).2 := by
  obtain ⟨statements, alike, joined⟩ := flow_joined cleanFirst cleanSecond
  -- From the machine the first text leaves, the whole runs the statements of the second moved down.
  have whole : session.flow fuel (first ++ "\n" ++ second) =
      Run.sequence (execute fuel) statements (session.flow fuel first).2 := by
    have inOrder : session.flow fuel first = (.done .normal, (session.flow fuel first).2) :=
      Prod.ext ended rfl
    rw [joined, inOrder]
  intro between
  obtain ⟨outcomes, machines⟩ :=
    Run.Like.program fuel alike (Machine.Like.refl Correspondence.displaced_reflexive between.machine)
  rw [run_of_clean cleanSecond, run_of_clean (clean_joined cleanFirst cleanSecond), whole]
  exact ⟨sameEnding_of_like outcomes _ _ _ _, machines⟩

/-- The statements of all texts, one after another. -/
def allStatements (texts : List String) : List Stmt :=
  texts.flatMap fun text => (parse text).statements

/-- The texts with newlines between them. -/
def joinedLines : List String → String
  | [] => ""
  | first :: others => others.foldl (fun whole text => whole ++ "\n" ++ text) first

/-- A text without errors stays so with others behind it, and its statements stay in front. -/
theorem parse_foldl {whole : String} {front : List Stmt}
    (cleanWhole : (parse whole).hasErrors = false)
    (same : List.Forall₂ (Stmt.Like View.displaced.toLikeness) front (parse whole).statements)
    {texts : List String} (clean : ∀ text ∈ texts, (parse text).hasErrors = false) :
    (parse (texts.foldl (fun whole text => whole ++ "\n" ++ text) whole)).hasErrors = false ∧
      List.Forall₂ (Stmt.Like View.displaced.toLikeness) (front ++ allStatements texts)
        (parse (texts.foldl (fun whole text => whole ++ "\n" ++ text) whole)).statements := by
  induction texts generalizing whole front with
  | nil =>
    rw [allStatements, List.flatMap_nil, List.append_nil]
    exact ⟨cleanWhole, same⟩
  | cons text others ih =>
    obtain ⟨statements, joined, alike⟩ := parse_joined_clean cleanWhole (clean text (by simp))
    have grown : List.Forall₂ (Stmt.Like View.displaced.toLikeness)
        (front ++ (parse text).statements) (parse (whole ++ "\n" ++ text)).statements := by
      rw [joined]
      exact List.rel_append same alike
    have later := ih (by rw [joined]; rfl) grown fun other member => clean other (by simp [member])
    rw [List.append_assoc] at later
    exact later

theorem parse_joinedLines {texts : List String}
    (clean : ∀ text ∈ texts, (parse text).hasErrors = false) :
    (parse (joinedLines texts)).hasErrors = false ∧
      List.Forall₂ (Stmt.Like View.displaced.toLikeness) (allStatements texts)
        (parse (joinedLines texts)).statements := by
  cases texts with
  | nil =>
    have nothing : (parse "").statements = [] := List.isEmpty_iff.1 (by decide +kernel)
    rw [joinedLines, nothing]
    exact ⟨by decide +kernel, .nil⟩
  | cons text others =>
    exact parse_foldl (clean text (by simp)) (Correspondence.displaced_reflexive.stmts _)
      fun other member => clean other (by simp [member])

/-- Running pieces is running all their statements. -/
theorem runPieces_eq {pieces : List (String × String)}
    (clean : ∀ piece ∈ pieces, (parse piece.2).hasErrors = false) (session : Session) :
    ∃ path source, runPieces fuel pieces session =
      (ending path source
        (Run.sequence (execute fuel) (allStatements (pieces.map Prod.snd)) session.machine).1,
        ⟨(Run.sequence (execute fuel) (allStatements (pieces.map Prod.snd)) session.machine).2⟩) := by
  induction pieces generalizing session with
  | nil => exact ⟨"", "", rfl⟩
  | cons piece others ih =>
    obtain ⟨path, text⟩ := piece
    have all : Run.sequence (execute fuel) (allStatements (text :: others.map Prod.snd))
        session.machine =
          match session.flow fuel text with
          | (.done .normal, reached) =>
            Run.sequence (execute fuel) (allStatements (others.map Prod.snd)) reached
          | ended => ended := Run.sequence_append _ _ _ _
    rw [runPieces, run_of_clean (clean (path, text) (by simp)), List.map_cons, all, returns]
    rcases session.flow fuel text with ⟨outcome, reached⟩
    cases outcome with
    | done flow =>
      cases flow with
      | normal => exact ih (fun other member => clean other (by simp [member])) ⟨reached⟩
      | returned value => exact ⟨path, text, rfl⟩
    | failed error => exact ⟨path, text, rfl⟩
    | exhausted => exact ⟨path, text, rfl⟩

theorem runPieces_alike {pieces : List (String × String)}
    (clean : ∀ piece ∈ pieces, (parse piece.2).hasErrors = false) (session : Session)
    (whole : String) :
    SameEnding (runPieces fuel pieces session).1
        (session.run fuel whole (joinedLines (pieces.map Prod.snd))).1 ∧
      (runPieces fuel pieces session).2.SameState
        (session.run fuel whole (joinedLines (pieces.map Prod.snd))).2 := by
  obtain ⟨path, source, ended⟩ := runPieces_eq clean session
  obtain ⟨cleanWhole, alike⟩ := parse_joinedLines (List.forall_mem_map.2 clean)
  obtain ⟨outcomes, machines⟩ :=
    Run.Like.program fuel alike (Machine.Like.refl Correspondence.displaced_reflexive session.machine)
  rw [ended, run_of_clean cleanWhole]
  exact ⟨sameEnding_of_like outcomes _ _ _ _, machines⟩

end Session

/-- A program of two texts, run as a whole, ends as the second does behind the first, with the same
output and state but for where tokens stand. If the first is aborted or returns, that is all there
is to the whole. In the same way, a program in any number of pieces does what it does as a whole. -/
theorem pieces_run_as_whole (fuel : Nat) (session : Session) :
    (∀ first second path path' whole : String,
      (parse first).hasErrors = false → (parse second).hasErrors = false →
      ((session.run fuel path first).1 = .done () → session.returns fuel first = false →
        SameEnding ((session.run fuel path first).2.run fuel path' second).1
            (session.run fuel whole (first ++ "\n" ++ second)).1 ∧
          ((session.run fuel path first).2.run fuel path' second).2.SameState
            (session.run fuel whole (first ++ "\n" ++ second)).2) ∧
      (∀ error after, session.run fuel path first = (.failed (.aborted path first error), after) →
        session.run fuel whole (first ++ "\n" ++ second) =
          (.failed (.aborted whole (first ++ "\n" ++ second) error), after)) ∧
      (session.returns fuel first = true →
        (session.run fuel path first).1 = .done () ∧
          session.run fuel whole (first ++ "\n" ++ second) = session.run fuel path first)) ∧
    ∀ (pieces : List (String × String)) (whole : String),
      (∀ piece ∈ pieces, (parse piece.2).hasErrors = false) →
      SameEnding (Session.runPieces fuel pieces session).1
          (session.run fuel whole (Session.joinedLines (pieces.map Prod.snd))).1 ∧
        (Session.runPieces fuel pieces session).2.SameState
          (session.run fuel whole (Session.joinedLines (pieces.map Prod.snd))).2 := by
  refine ⟨?_, fun pieces whole clean => Session.runPieces_alike clean session whole⟩
  intro first second path path' whole cleanFirst cleanSecond
  have stopped (other : (session.flow fuel first).1 ≠ .done .normal) :=
    Session.run_joined_of_stopped cleanFirst cleanSecond other whole
  refine ⟨?_, ?_, ?_⟩
  · intro done goesOn
    have ended := Session.flow_of_run cleanFirst done goesOn
    have alike := Session.run_joined_alike cleanFirst cleanSecond ended path' whole
    rw [Session.run_of_clean cleanFirst]
    exact alike
  · intro error after aborted
    have ended := Session.flow_of_aborted cleanFirst aborted
    rw [stopped (by rw [ended]; simp), ended]
    rfl
  · intro returned
    obtain ⟨value, ended⟩ := Session.flow_of_returns returned
    rw [Session.run_of_clean cleanFirst, stopped (by rw [ended]; simp), ended]
    exact ⟨rfl, rfl⟩

private def declaring : String := "var a = 1; fun next(n) \x7b return n + a; \x7d // a comment"

private def calling : String := "print next(a); print b;"

private def leaving : String := "print 0; return 1;"

private def opening : Session := .start fun _ => 0

private def isDone : Outcome Failure Unit → Bool
  | .done () => true
  | _ => false

private theorem eq_done_of_isDone {outcome : Outcome Failure Unit} (done : isDone outcome = true) :
    outcome = .done () := by
  cases outcome with
  | done value => rfl
  | _ => simp [isDone] at done

private def isAborted : Outcome RuntimeError Flow → Bool
  | .failed _ => true
  | _ => false

private theorem aborted_of_isAborted {outcome : Outcome RuntimeError Flow}
    (aborted : isAborted outcome = true) : ∃ error, outcome = .failed error := by
  cases outcome with
  | failed error => exact ⟨error, rfl⟩
  | _ => simp [isAborted] at aborted

/-- What one piece declares the next can call, up to an error there; and nothing is done behind a
piece that returns or is aborted. -/
theorem calling_after_declaring :
    (opening.run 20 "a" declaring).1 = .done () ∧ opening.returns 20 declaring = false ∧
      SameEnding ((opening.run 20 "a" declaring).2.run 20 "b" calling).1
        (opening.run 20 "ab" (declaring ++ "\n" ++ calling)).1 ∧
      (∃ error after, opening.run 20 "a" calling = (.failed (.aborted "a" calling error), after) ∧
        opening.run 20 "ab" (calling ++ "\n" ++ declaring) =
          (.failed (.aborted "ab" (calling ++ "\n" ++ declaring) error), after)) ∧
      opening.returns 20 leaving = true ∧
      opening.run 20 "ab" (leaving ++ "\n" ++ declaring) = opening.run 20 "a" leaving ∧
      SameEnding
        (Session.runPieces 20 [("a", declaring), ("b", calling), ("c", leaving)] opening).1
        (opening.run 20 "abc" (Session.joinedLines [declaring, calling, leaving])).1 := by
  have cleanDeclaring : (parse declaring).hasErrors = false := by decide +kernel
  have cleanCalling : (parse calling).hasErrors = false := by decide +kernel
  have cleanLeaving : (parse leaving).hasErrors = false := by decide +kernel
  have done : (opening.run 20 "a" declaring).1 = .done () := eq_done_of_isDone (by decide +kernel)
  have goesOn : opening.returns 20 declaring = false := by decide +kernel
  have returns : opening.returns 20 leaving = true := by decide +kernel
  obtain ⟨error, ended⟩ : ∃ error, (opening.flow 20 calling).1 = .failed error :=
    aborted_of_isAborted (by decide +kernel)
  have aborted : opening.run 20 "a" calling =
      (.failed (.aborted "a" calling error), ⟨(opening.flow 20 calling).2⟩) := by
    rw [Session.run_of_clean cleanCalling, ended]
    rfl
  obtain ⟨pairs, lists⟩ := pieces_run_as_whole 20 opening
  obtain ⟨inOrder, _, _⟩ := pairs declaring calling "a" "b" "ab" cleanDeclaring cleanCalling
  obtain ⟨_, stops, _⟩ := pairs calling declaring "a" "b" "ab" cleanCalling cleanDeclaring
  obtain ⟨_, _, leaves⟩ := pairs leaving declaring "a" "b" "ab" cleanLeaving cleanDeclaring
  exact ⟨done, goesOn, (inOrder done goesOn).1, ⟨error, _, aborted, stops error _ aborted⟩, returns,
    (leaves returns).2,
    (lists [("a", declaring), ("b", calling), ("c", leaving)] "abc" (by
      simp [cleanDeclaring, cleanCalling, cleanLeaving])).1⟩

end TinyScript
