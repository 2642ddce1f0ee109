import TinyScript.Proofs.MoreFuel
import TinyScript.Proofs.PaddedRun
import TinyScript.Syntax.Statement

/-! What a `for` loop means, said directly: the initializer in a scope of its own, and then turn after
turn in one and the same scope. The parser spells loops out in other statements, with a block around
the initializer and one more around the body and the increment of every turn. That changes nothing but
empty scopes. -/
namespace TinyScript

namespace Run

theorem bind_assoc {α β γ : Type} (run : Run α) (next : α → Run β) (last : β → Run γ) :
    run >>= next >>= last = run >>= fun value => next value >>= last := by
  funext machine
  change Run.bind (Run.bind run next) last machine =
    Run.bind run (fun value => next value >>= last) machine
  unfold Run.bind
  rcases run machine with ⟨outcome, reached⟩
  cases outcome <;> rfl

theorem bind_pure {α : Type} (run : Run α) : run >>= Pure.pure = run := by
  funext machine
  change Run.bind run Run.pure machine = run machine
  unfold Run.bind
  rcases run machine with ⟨outcome, reached⟩
  cases outcome <;> rfl

/-- Goes on with the rest unless the first run is on the way out of a function. -/
def unlessReturned (first rest : Run Flow) : Run Flow := do
  match ← first with
  | .normal => rest
  | .returned value => return .returned value

/-- Runs the one thing after the other in a new scope inside the current one. -/
def opened (first rest : Run Flow) : Run Flow := do
  let scope ← newScope (← currentScope)
  inScope scope (unlessReturned first rest)

/-- Turn after turn, as long as the test holds before and none of them returns. -/
def turns (test : Nat → Run Bool) (turn : Nat → Run Flow) : (fuel : Nat) → Run Flow
  | 0 => exhausted
  | fuel + 1 => do
    if ← test fuel then unlessReturned (turn fuel) (turns test turn fuel)
    else return .normal

theorem unlessReturned_normal (first : Run Flow) :
    unlessReturned first (return .normal) = first := by
  have same : (fun flow : Flow =>
      match flow with
      | .normal => (return .normal : Run Flow)
      | .returned value => return .returned value) = Pure.pure := by
    funext flow
    cases flow <;> rfl
  unfold unlessReturned
  rw [same, bind_pure]

theorem sequence_pair (execute : Stmt → Run Flow) (first second : Stmt) :
    sequence execute [first, second] = unlessReturned (execute first) (execute second) := by
  rw [← unlessReturned_normal (execute second)]
  rfl

/-- Two statements in a block. -/
theorem execute_pair (fuel : Nat) (first second : Stmt) :
    execute (fuel + 1) (.block [first, second]) =
      opened (execute fuel first) (execute fuel second) := by
  unfold opened
  rw [← sequence_pair]
  rfl

theorem execute_loop (fuel : Nat) (condition : Expr) (body : Stmt) :
    execute fuel (.loop condition body) =
      turns (fun fuel => do return (← evaluate fuel condition).isTruthy)
        (fun fuel => execute fuel body) fuel := by
  induction fuel with
  | zero => rfl
  | succ fuel ih =>
    rw [turns, ← ih, bind_assoc]
    rfl

namespace PrintsOn

variable {first rest : Run Flow}

theorem unlessReturned (one : first.PrintsOn) (other : rest.PrintsOn) :
    (unlessReturned first rest).PrintsOn := by
  apply bind one
  intro flow
  cases flow with
  | normal => exact other
  | returned value => exact printsOn_pure (Flow.returned value)

theorem turns {test : Nat → Run Bool} {turn : Nat → Run Flow} (tests : ∀ fuel, (test fuel).PrintsOn)
    (each : ∀ fuel, (turn fuel).PrintsOn) (fuel : Nat) : (turns test turn fuel).PrintsOn := by
  induction fuel with
  | zero => exact Elementary.exhausted.printsOn
  | succ fuel ih =>
    apply bind (tests fuel)
    intro goesOn
    cases goesOn with
    | true => exact unlessReturned (each fuel) ih
    | false => exact printsOn_pure Flow.normal

theorem opened (one : first.PrintsOn) (other : rest.PrintsOn) : (opened first rest).PrintsOn := by
  apply bind Elementary.currentScope.printsOn
  intro enclosing
  apply bind (Elementary.newScope enclosing).printsOn
  intro scope
  exact inScope scope (unlessReturned one other)

end PrintsOn

namespace ExtendedBy

variable {first longer rest onwards : Run Flow}

theorem unlessReturned (one : first.ExtendedBy longer) (other : rest.ExtendedBy onwards) :
    (unlessReturned first rest).ExtendedBy (unlessReturned longer onwards) := by
  apply bind one
  intro flow
  cases flow with
  | normal => exact other
  | returned value => exact pure (Flow.returned value)

theorem opened (one : first.ExtendedBy longer) (other : rest.ExtendedBy onwards) :
    (opened first rest).ExtendedBy (opened longer onwards) := by
  apply bind (step .currentScope)
  intro enclosing
  apply bind (step (.newScope enclosing))
  intro scope
  exact inScope scope (unlessReturned one other)

/-- Turns that take more fuel each. -/
theorem turns {more : Nat} {test check : Nat → Run Bool} {turn whole : Nat → Run Flow}
    (prints : ∀ fuel, (turns check whole fuel).PrintsOn)
    (tests : ∀ fuel, (test fuel).ExtendedBy (check (fuel + more)))
    (each : ∀ fuel, (turn fuel).ExtendedBy (whole (fuel + more))) (fuel : Nat) :
    (turns test turn fuel).ExtendedBy (turns check whole (fuel + more)) := by
  induction fuel with
  | zero => exact exhausted (prints _)
  | succ fuel ih =>
    rw [Nat.succ_add]
    apply bind (tests fuel)
    intro goesOn
    cases goesOn with
    | true => exact unlessReturned (each fuel) ih
    | false => exact pure Flow.normal

theorem expression {fuel more : Nat} (enough : fuel ≤ more) (value : Expr) :
    (execute fuel (.expression value)).ExtendedBy
      (evaluate more value >>= fun _ => return .normal) := by
  cases fuel with
  | zero =>
    exact exhausted (.bind ((compositional_printsOn.evaluation more).1 value) fun _ =>
      printsOn_pure Flow.normal)
  | succ fuel =>
    exact bind ((evaluation (Nat.le_of_succ_le enough)).1 value) fun _ => pure Flow.normal

end ExtendedBy

end Run

namespace ForHeader

variable (header : ForHeader) (body : Stmt)

/-- Whether there is another turn; without a condition there always is. -/
def test (fuel : Nat) : Run Bool :=
  match header.condition with
  | some condition => do return (← evaluate fuel condition).isTruthy
  | none => return true

/-- What comes behind the body in a turn. -/
def advance (fuel : Nat) : Run Flow :=
  match header.increment with
  | some increment => do
    let _ ← evaluate fuel increment
    return .normal
  | none => return .normal

/-- The body and then the increment, unless the body returns. -/
def turn (fuel : Nat) : Run Flow := Run.unlessReturned (execute fuel body) (header.advance fuel)

/-- The loop as it is meant. Only an initializer opens a scope. -/
def direct (fuel : Nat) : Run Flow :=
  match header.initializer with
  | some initializer =>
    Run.opened (execute fuel initializer) (Run.turns header.test (header.turn body) fuel)
  | none => Run.turns header.test (header.turn body) fuel

/-- The condition that is tested. -/
def tested : Expr := header.condition.getD (.literal (.bool true))

def check (fuel : Nat) : Run Bool := do return (← evaluate fuel header.tested).isTruthy

/-- The statement that makes up a turn. -/
def turnStatement : Stmt :=
  match header.increment with
  | some increment => .block [body, .expression increment]
  | none => body

/-- What that statement does, but for the scope it opens. -/
def bareTurn (fuel : Nat) : Run Flow :=
  match header.increment, fuel with
  | some _, 0 => Run.exhausted
  | some increment, fuel + 1 =>
    Run.unlessReturned (execute fuel body) (execute fuel (.expression increment))
  | none, fuel => execute fuel body

/-- What the whole loop does as it is spelled out, but for those scopes. -/
def bare (fuel : Nat) : Run Flow :=
  match header.initializer, fuel with
  | some _, 0 => Run.exhausted
  | some initializer, fuel + 1 =>
    Run.opened (execute fuel initializer) (Run.turns header.check (header.bareTurn body) fuel)
  | none, fuel => Run.turns header.check (header.bareTurn body) fuel

theorem bareTurn_zero : header.bareTurn body 0 = Run.exhausted := by
  unfold bareTurn
  cases header.increment <;> rfl

theorem bare_zero : header.bare body 0 = Run.exhausted := by
  unfold bare
  cases header.initializer <;> rfl

theorem loop_eq :
    header.loop body =
      match header.initializer with
      | some initializer => .block [initializer, .loop header.tested (header.turnStatement body)]
      | none => .loop header.tested (header.turnStatement body) := rfl

section Printing

variable (fuel : Nat)

theorem test_printsOn : (header.test fuel).PrintsOn := by
  unfold test
  cases header.condition with
  | some condition =>
    exact .bind ((Run.compositional_printsOn.evaluation fuel).1 condition) fun _ =>
      Run.printsOn_pure _
  | none => exact Run.printsOn_pure true

theorem check_printsOn : (header.check fuel).PrintsOn :=
  .bind ((Run.compositional_printsOn.evaluation fuel).1 header.tested) fun _ => Run.printsOn_pure _

theorem turn_printsOn : (header.turn body fuel).PrintsOn := by
  obtain ⟨values, flows⟩ := Run.compositional_printsOn.evaluation fuel
  apply Run.PrintsOn.unlessReturned (flows body)
  unfold advance
  cases header.increment with
  | some increment => exact .bind (values increment) fun _ => Run.printsOn_pure Flow.normal
  | none => exact Run.printsOn_pure Flow.normal

theorem bareTurn_printsOn : (header.bareTurn body fuel).PrintsOn := by
  unfold bareTurn
  cases header.increment with
  | some increment =>
    cases fuel with
    | zero => exact Run.Elementary.exhausted.printsOn
    | succ fuel =>
      obtain ⟨_, flows⟩ := Run.compositional_printsOn.evaluation fuel
      exact .unlessReturned (flows body) (flows (.expression increment))
  | none => exact (Run.compositional_printsOn.evaluation fuel).2 body

theorem direct_printsOn : (header.direct body fuel).PrintsOn := by
  have turns := Run.PrintsOn.turns header.test_printsOn (header.turn_printsOn body) fuel
  unfold direct
  cases header.initializer with
  | some initializer =>
    exact .opened ((Run.compositional_printsOn.evaluation fuel).2 initializer) turns
  | none => exact turns

end Printing

section Fuel

variable {fuel more : Nat}

theorem check_extended (enough : fuel ≤ more) :
    (header.check fuel).ExtendedBy (header.test more) := by
  cases fuel with
  | zero => exact .exhausted (header.test_printsOn more)
  | succ fuel =>
    unfold check test tested
    cases header.condition with
    | some condition => exact .bind ((Run.ExtendedBy.evaluation enough).1 condition) fun _ => .pure _
    | none => exact .pure true

theorem test_extended (enough : fuel < more) :
    (header.test fuel).ExtendedBy (header.check more) := by
  obtain ⟨more, rfl⟩ := Nat.exists_eq_succ_of_ne_zero (Nat.ne_zero_of_lt enough)
  unfold check test tested
  cases header.condition with
  | some condition =>
    exact .bind ((Run.ExtendedBy.evaluation (Nat.le_of_lt enough)).1 condition) fun _ => .pure _
  | none => exact .pure true

theorem bareTurn_extended (enough : fuel ≤ more) :
    (header.bareTurn body fuel).ExtendedBy (header.turn body more) := by
  cases fuel with
  | zero =>
    rw [bareTurn_zero]
    exact .exhausted (header.turn_printsOn body more)
  | succ fuel =>
    unfold turn advance bareTurn
    cases header.increment with
    | none =>
      rw [Run.unlessReturned_normal]
      exact (Run.ExtendedBy.evaluation enough).2 body
    | some increment =>
      have longer := (Run.ExtendedBy.evaluation (Nat.le_of_lt enough)).2 body
      exact .unlessReturned longer (.expression (Nat.le_of_lt enough) increment)

/-- One level is for the block around a turn, and one for the increment as a statement. -/
theorem turn_extended (enough : fuel + 2 ≤ more) :
    (header.turn body fuel).ExtendedBy (header.bareTurn body more) := by
  obtain ⟨rest, rfl⟩ : ∃ rest, more = rest + 2 := ⟨more - 2, by omega⟩
  have within : fuel ≤ rest := Nat.le_of_add_le_add_right enough
  unfold turn advance bareTurn
  cases header.increment with
  | none =>
    rw [Run.unlessReturned_normal]
    exact (Run.ExtendedBy.evaluation (Nat.le_add_right_of_le within)).2 body
  | some increment =>
    have longer := (Run.ExtendedBy.evaluation (Nat.le_succ_of_le within)).2 body
    have further := (Run.ExtendedBy.evaluation within).1 increment
    exact .unlessReturned longer (.bind further fun _ => .pure _)

end Fuel

theorem bare_extended (fuel : Nat) :
    (header.bare body fuel).ExtendedBy (header.direct body fuel) := by
  cases fuel with
  | zero =>
    rw [bare_zero]
    exact .exhausted (header.direct_printsOn body 0)
  | succ fuel =>
    have turns (fuel more : Nat) : (Run.turns header.check (header.bareTurn body) fuel).ExtendedBy
        (Run.turns header.test (header.turn body) (fuel + more)) :=
      .turns (.turns header.test_printsOn (header.turn_printsOn body))
        (fun fuel => header.check_extended (Nat.le_add_right fuel more))
        (fun fuel => header.bareTurn_extended body (Nat.le_add_right fuel more)) fuel
    unfold bare direct
    cases header.initializer with
    | none => exact turns (fuel + 1) 0
    | some initializer =>
      have first := (Run.ExtendedBy.evaluation (Nat.le_succ fuel)).2 initializer
      exact .opened first (turns fuel 1)

theorem direct_extended (fuel : Nat) :
    (header.direct body fuel).ExtendedBy (header.bare body (fuel + 3)) := by
  have turns (fuel more : Nat) : (Run.turns header.test (header.turn body) fuel).ExtendedBy
      (Run.turns header.check (header.bareTurn body) (fuel + (2 + more))) :=
    .turns (.turns header.check_printsOn (header.bareTurn_printsOn body))
      (fun fuel => header.test_extended (by omega))
      (fun fuel => header.turn_extended body (by omega)) fuel
  unfold bare direct
  cases header.initializer with
  | none => exact turns fuel 1
  | some initializer =>
    have first := (Run.ExtendedBy.evaluation (Nat.le_add_right fuel 2)).2 initializer
    exact .opened first (turns fuel 0)

end ForHeader

namespace Padding

variable {padding : Padding} {padded plain : Machine}

namespace Alike

section Parts

variable {first same rest follows : Run Flow}

theorem unlessReturned
    (one : padding.Alike Flow.Stands padded plain (first padded) (same plain))
    (other : Beside Flow.Stands rest follows) :
    padding.Alike Flow.Stands padded plain (Run.unlessReturned first rest padded)
      (Run.unlessReturned same follows plain) := by
  apply bind one
  intro after reached reached' flow _ leads stands
  cases stands with
  | normal => exact other leads.joined
  | returned stands => exact pure leads.joined (.returned stands)

/-- What is first in a new scope may declare names there. -/
theorem opened (one : ∀ ⦃padding : Padding⦄ ⦃padded plain : Machine⦄, padded.Padded padding plain →
      padding.IsOwn padded.scope →
        padding.Alike Flow.Stands padded plain (first padded) (same plain))
    (other : Beside Flow.Stands rest follows) :
    Beside Flow.Stands (Run.opened first rest) (Run.opened same follows) := by
  intro padding padded plain joined
  apply bind (currentScope joined)
  intro after reached reached' enclosing around leads stands
  apply bind (newScope leads.joined stands)
  rintro last ready ready' scope place more ⟨opened, own⟩
  exact inScope more.joined (unlessReturned (one (more.joined.withScope opened) own) other)

theorem openedInPadding (one : Beside Flow.Stands first same) (other : Beside Flow.Stands rest follows) :
    Beside Flow.Stands (Run.opened first rest) (Run.unlessReturned same follows) := by
  intro padding padded plain joined
  have leads := joined.addPadding
  have stands : (padding.pad padded.heap.scopes.size padded.scope).Stands
      (padded.heap.addScope (some padded.scope)).2 padded.heap.scopes.size plain.scope :=
    ⟨by simp [Heap.addScope], joined.scope.trans (if_pos rfl).symm⟩
  exact onwards leads (inPadding leads.joined stands
    (unlessReturned (one (leads.joined.withScope stands)) other))

theorem turns {test : Nat → Run Bool} {turn whole : Nat → Run Flow}
    (tests : ∀ fuel, Beside equal (test fuel) (test fuel))
    (each : ∀ fuel, Beside Flow.Stands (turn fuel) (whole fuel)) (fuel : Nat) :
    Beside Flow.Stands (Run.turns test turn fuel) (Run.turns test whole fuel) := by
  induction fuel with
  | zero => exact fun _ _ _ joined => exhausted joined
  | succ fuel ih =>
    intro padding padded plain joined
    apply bind (tests fuel joined)
    rintro after reached other goesOn _ leads rfl
    cases goesOn with
    | true => exact unlessReturned (each fuel leads.joined) ih
    | false => exact pure leads.joined .normal

end Parts

section Loops

variable (header : ForHeader) {body : Stmt} (silent : body.declaresNone = true)

theorem check (fuel : Nat) : Beside equal (header.check fuel) (header.check fuel) := by
  intro padding padded plain joined
  apply bind ((evaluation fuel).1 header.tested joined)
  rintro after reached other value _ leads ⟨_, rfl⟩
  exact pure leads.joined value.isTruthy_renumber.symm

include silent

theorem turnStatement (fuel : Nat) :
    Beside Flow.Stands (execute fuel (header.turnStatement body)) (header.bareTurn body fuel) := by
  have plainly (fuel : Nat) : Beside Flow.Stands (execute fuel body) (execute fuel body) :=
    fun _ _ _ joined => (evaluation fuel).2 body joined (.inl silent)
  unfold ForHeader.turnStatement ForHeader.bareTurn
  cases header.increment with
  | none => exact plainly fuel
  | some increment =>
    cases fuel with
    | zero => exact fun _ _ _ joined => exhausted joined
    | succ fuel =>
      dsimp only
      rw [Run.execute_pair]
      exact openedInPadding (plainly fuel) fun _ _ _ joined =>
        (evaluation fuel).2 (.expression increment) joined (.inl rfl)

theorem loop (fuel : Nat) :
    Beside Flow.Stands (execute fuel (header.loop body)) (header.bare body fuel) := by
  have repeated (fuel : Nat) : Beside Flow.Stands
      (execute fuel (.loop header.tested (header.turnStatement body)))
      (Run.turns header.check (header.bareTurn body) fuel) := by
    rw [Run.execute_loop]
    exact turns (check header) (turnStatement header silent) fuel
  rw [ForHeader.loop_eq]
  unfold ForHeader.bare
  cases header.initializer with
  | none => exact repeated fuel
  | some initializer =>
    cases fuel with
    | zero => exact fun _ _ _ joined => exhausted joined
    | succ fuel =>
      dsimp only
      rw [Run.execute_pair]
      exact opened (fun _ _ _ joined own => (evaluation fuel).2 initializer joined (.inr own))
        (repeated fuel)

end Loops

end Alike

end Padding

end TinyScript
