import TinyScript.Proofs.Decoding
import TinyScript.Proofs.Feeding
import TinyScript.Proofs.NoLeaks

/-! Rejected requests. What a session does with a request hangs on the text of it alone: without a
text, or with an error in it, nothing runs, and the session goes on as if it had not been asked. -/
namespace TinyScript

/-- The text that a request asks to run: its source, or what the bytes of its file stand for. -/
def Request.source? : Request → Option String
  | .text _ source => some source
  | .file _ (.contents bytes) => String.fromUTF8? bytes.toByteArray
  | .file _ _ => none

namespace Outcome

/-- Whether a request failed for errors in its text. -/
def isMalformed : Outcome Failure Unit → Bool
  | .failed (.malformed ..) => true
  | _ => false

/-- Whether a request failed because there was no text to be had. -/
def isUnreadable : Outcome Failure Unit → Bool
  | .failed (.unreadable _) => true
  | _ => false

def isRejected (outcome : Outcome Failure Unit) : Bool := outcome.isMalformed || outcome.isUnreadable

end Outcome

/-- The errors in a text are those of its items and those of its grammar. -/
theorem Parsed.hasErrors_iff (text : String) :
    (parse text).hasErrors = true ↔ scanErrors text ≠ [] ∨ (parse text).errors ≠ [] := by
  have lexical : (parse text).lexicalErrors = scanErrors text := by
    show (Feed.ofItems (scan text)).errors = _
    rw [← (Feed.ofItems_upToEnd _).2, Item.errorsUpToEnd, Item.upToEnd_scan]
    rfl
  rw [hasErrors, lexical, Bool.or_eq_true, Or.comm]
  simp

namespace Session

variable (fuel : Nat) (session : Session)

theorem run_cases (path text : String) :
    ((parse text).hasErrors = true ∧
      session.run fuel path text =
        (.failed (.malformed path text (parse text).lexicalErrors (parse text).errors), session)) ∨
    ((parse text).hasErrors = false ∧ (session.run fuel path text).1.isRejected = false) := by
  unfold run runParsed
  cases hasErrors : (parse text).hasErrors with
  | true => exact .inl ⟨rfl, rfl⟩
  | false =>
    refine .inr ⟨rfl, ?_⟩
    simp only [Bool.false_eq_true, if_false]
    rcases interpret fuel (parse text).statements session.machine with ⟨outcome, machine⟩
    cases outcome <;> rfl

/-- A request with a text runs that text. -/
theorem answer_of_source {request : Request} {text : String} (given : request.source? = some text) :
    ∃ path, session.answer fuel request = session.run fuel path text := by
  cases request with
  | text path source =>
    cases given
    exact ⟨path, rfl⟩
  | file path file =>
    cases file with
    | absent fault => cases given
    | directory => cases given
    | contents bytes =>
      refine ⟨path, ?_⟩
      by_cases valid : bytes.toByteArray.IsValidUTF8
      · rw [Request.source?, String.fromUTF8?, dif_pos valid] at given
        cases given
        have encoded := bytes_of_valid valid
        generalize String.fromUTF8 bytes.toByteArray valid = text at encoded
        rw [answer, encoded, runFile_encoded]
      · rw [Request.source?, String.fromUTF8?, dif_neg valid] at given
        cases given

/-- A request without a text runs nothing. -/
theorem answer_of_no_source {request : Request} (missing : request.source? = none) :
    ∃ fault, session.answer fuel request = (.failed (.unreadable fault), session) := by
  cases request with
  | text path source => cases missing
  | file path file =>
    apply runFile_unreadable
    rintro bytes rfl valid
    rw [Request.source?, String.fromUTF8?, dif_pos valid] at missing
    cases missing

/-- A rejected request changes nothing, and it is rejected for what its text is. -/
theorem answer_spec (request : Request) :
    ((session.answer fuel request).1.isRejected = true → (session.answer fuel request).2 = session) ∧
    ((session.answer fuel request).1.isUnreadable = true ↔ request.source? = none) ∧
    ((session.answer fuel request).1.isMalformed = true ↔
      ∃ text, request.source? = some text ∧ (parse text).hasErrors = true) := by
  cases given : request.source? with
  | none =>
    obtain ⟨fault, answered⟩ := session.answer_of_no_source fuel given
    simp [answered, Outcome.isUnreadable, Outcome.isMalformed]
  | some text =>
    obtain ⟨path, answered⟩ := session.answer_of_source fuel given
    rcases session.run_cases fuel path text with ⟨errors, ran⟩ | ⟨clean, ran⟩
    · simp [answered, ran, errors, Outcome.isUnreadable, Outcome.isMalformed]
    · rw [answered]
      rw [Outcome.isRejected, Bool.or_eq_false_iff] at ran
      simp [Outcome.isRejected, ran.1, ran.2, clean]

/-- The answers to a row of requests, each with the session behind it. -/
def answers (session : Session) : List (Nat × Request) → List (Outcome Failure Unit × Session)
  | [] => []
  | (fuel, request) :: others =>
    session.answer fuel request :: (session.answer fuel request).2.answers others

end Session

/-- The entries of a row that have the mark `true`. -/
def marked {α : Type} (marks : List Bool) (row : List α) : List α :=
  ((marks.zip row).filter fun entry => entry.1).map Prod.snd

namespace Session

/-- Striking out rejected requests leaves the answers to the others as they are. -/
theorem answers_marked {session : Session} {requests : List (Nat × Request)} {marks : List Bool}
    (rejected : List.Forall₂ (fun mark answer => mark = false → answer.1.isRejected = true) marks
      (session.answers requests)) :
    session.answers (marked marks requests) = marked marks (session.answers requests) ∧
      session.serve (marked marks requests) = session.serve requests := by
  induction requests generalizing session marks with
  | nil =>
    cases rejected
    exact ⟨rfl, rfl⟩
  | cons request others ih =>
    obtain ⟨fuel, request⟩ := request
    obtain _ | @⟨mark, _, marks, _, here, later⟩ := rejected
    obtain ⟨same, behind⟩ := ih later
    cases mark with
    | true => exact ⟨congrArg (session.answer fuel request :: ·) same, behind⟩
    | false =>
      -- The session behind the request is the one in front of it.
      have idle := (session.answer_spec fuel request).1 (here rfl)
      rw [idle] at same behind
      have served : session.serve ((fuel, request) :: others) = session.serve others := by
        show (session.answer fuel request).2.serve others = _
        rw [idle]
      rw [answers, idle, served]
      exact ⟨same, behind⟩

end Session

/-- Rejected requests leave no trace. A request that is rejected leaves its session as it was, with all
that is declared and printed, so striking any rejected requests from a row changes neither the answers
to the others nor the sessions behind them. Rejected are the requests that have no text, and those
with an error among the items of their text or in its grammar, whatever ran before. -/
theorem rejected_requests_leave_no_trace :
    (∀ (fuel : Nat) (session : Session) (request : Request),
      (session.answer fuel request).1.isRejected = true →
        (session.answer fuel request).2 = session) ∧
    (∀ (session : Session) (requests : List (Nat × Request)) (marks : List Bool),
      List.Forall₂ (fun mark answer => mark = false → answer.1.isRejected = true) marks
        (session.answers requests) →
      session.answers (marked marks requests) = marked marks (session.answers requests) ∧
        session.serve (marked marks requests) = session.serve requests) ∧
    ∀ (fuel : Nat) (session : Session) (request : Request),
      ((session.answer fuel request).1.isUnreadable = true ↔ request.source? = none) ∧
      ((session.answer fuel request).1.isMalformed = true ↔
        ∃ text, request.source? = some text ∧ (scanErrors text ≠ [] ∨ (parse text).errors ≠ [])) := by
  refine ⟨fun fuel session request => (session.answer_spec fuel request).1, ?_, ?_⟩
  · intro session requests marks rejected
    exact Session.answers_marked rejected
  · intro fuel session request
    obtain ⟨-, unreadable, malformed⟩ := session.answer_spec fuel request
    refine ⟨unreadable, malformed.trans ?_⟩
    simp only [Parsed.hasErrors_iff]

/-- A declaration, a text with an error behind an assignment, bytes that are none of a text, a run
that aborts, and one that prints what was declared. -/
private def mixed : List (Nat × Request) :=
  [(9, .text "a" "var a = 1;"), (9, .text "b" "a = 2; var"), (9, .file "c" (.contents [0x61, 0xFF])),
    (9, .text "d" "lost = a;"), (9, .text "e" "println(a);")]

private def fresh : Session := Session.start fun _ => 0

theorem mixed_without_rejected :
    fresh.answers (marked [true, false, false, true, true] mixed) =
        marked [true, false, false, true, true] (fresh.answers mixed) ∧
      (fresh.serve (marked [true, false, false, true, true] mixed)).machine.output = "1\n" ∧
      (fresh.answer 9 (.text "b" "a = 2; var")).1.isMalformed = true ∧
      (fresh.answer 9 (.file "c" (.contents [0x61, 0xFF]))).1.isUnreadable = true := by
  obtain ⟨-, rows, kinds⟩ := rejected_requests_leave_no_trace
  obtain ⟨same, behind⟩ := rows fresh mixed [true, false, false, true, true]
    (.cons nofun (.cons (fun _ => by cbv) (.cons (fun _ => by cbv) (.cons nofun (.cons nofun .nil)))))
  refine ⟨same, ?_, (kinds 9 fresh _).2.2 ⟨_, rfl, .inr ?_⟩, (kinds 9 fresh _).1.2 ?_⟩
  · rw [behind]
    cbv
  · cbv
    exact List.cons_ne_nil _ _
  · cbv

end TinyScript
