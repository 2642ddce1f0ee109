import TinyScript.Run.Eval

/-! The return that a statement is left by. A value on the way out of a function comes from one return
statement, reached through blocks, branches and loops that have gone well up to there. The rules below
say when a statement is on the way to a certain return, and the values on the way out are exactly those
that such returns give. -/
namespace TinyScript

namespace Machine

/-- The machine with one more scope, numbered behind all others. -/
def holding (machine : Machine) (scope : Scope) : Machine :=
  { machine with heap := { machine.heap with scopes := machine.heap.scopes.push scope } }

/-- The machine in one more scope. -/
def entering (machine : Machine) (scope : Scope) : Machine :=
  { machine.holding scope with scope := machine.heap.scopes.size }

end Machine

/-- A return that has been reached: what it is to return, and the machine and the fuel at that time. -/
structure Exit where
  value? : Option Expr
  machine : Machine
  fuel : Nat

/-- What the return gives: the value of its expression, or `nil` without one. -/
def Exit.outcome (exit : Exit) : Outcome RuntimeError Value :=
  match exit.value? with
  | some value => (evaluate exit.fuel value exit.machine).1
  | none => .done .nil

/-- Run with so much fuel on the machine, the statement comes to the return. -/
inductive Stmt.ComesTo : (fuel : Nat) → Stmt → Machine → Exit → Prop where
  | ret {fuel : Nat} {keyword : Token} {value? : Option Expr} {machine : Machine} :
      ComesTo (fuel + 1) (.ret keyword value?) machine ⟨value?, machine, fuel⟩
  | block {fuel : Nat} {before after : List Stmt} {statement : Stmt} {machine between : Machine}
      {exit : Exit}
      (passed : Run.sequence (execute fuel) before
        (machine.entering { enclosing := some machine.scope }) = (.done .normal, between))
      (comes : ComesTo fuel statement between exit) :
      ComesTo (fuel + 1) (.block (before ++ statement :: after)) machine exit
  | consequent {fuel : Nat} {condition : Expr} {value : Value} {consequent : Stmt}
      {alternative : Option Stmt} {machine between : Machine} {exit : Exit}
      (tested : evaluate fuel condition machine = (.done value, between))
      (truthy : value.isTruthy = true) (comes : ComesTo fuel consequent between exit) :
      ComesTo (fuel + 1) (.branch condition consequent alternative) machine exit
  | alternative {fuel : Nat} {condition : Expr} {value : Value} {consequent alternative : Stmt}
      {machine between : Machine} {exit : Exit}
      (tested : evaluate fuel condition machine = (.done value, between))
      (falsy : value.isTruthy = false) (comes : ComesTo fuel alternative between exit) :
      ComesTo (fuel + 1) (.branch condition consequent (some alternative)) machine exit
  | turn {fuel : Nat} {condition : Expr} {value : Value} {body : Stmt} {machine between : Machine}
      {exit : Exit} (tested : evaluate fuel condition machine = (.done value, between))
      (truthy : value.isTruthy = true) (comes : ComesTo fuel body between exit) :
      ComesTo (fuel + 1) (.loop condition body) machine exit
  | laterTurn {fuel : Nat} {condition : Expr} {value : Value} {body : Stmt}
      {machine between after : Machine} {exit : Exit}
      (tested : evaluate fuel condition machine = (.done value, between))
      (truthy : value.isTruthy = true) (passed : execute fuel body between = (.done .normal, after))
      (comes : ComesTo fuel (.loop condition body) after exit) :
      ComesTo (fuel + 1) (.loop condition body) machine exit

/-- Run one after another, the statements come to the return: one of them does when those in front of it
have gone well. -/
def Stmt.RowComesTo (fuel : Nat) (statements : List Stmt) (machine : Machine) (exit : Exit) : Prop :=
  ∃ before statement after between, statements = before ++ statement :: after ∧
    Run.sequence (execute fuel) before machine = (.done .normal, between) ∧
    statement.ComesTo fuel between exit

namespace Run

/-- A run in two parts gives an answer if the first part gives a value and the second, from there, the
answer. -/
theorem fst_bind_eq_done_iff {α β : Type} {first : Run α} {next : α → Run β} {machine : Machine}
    {answer : β} :
    (Run.bind first next machine).1 = .done answer ↔
      ∃ value between, first machine = (.done value, between) ∧
        (next value between).1 = .done answer := by
  simp only [Run.bind]
  rcases first machine with ⟨outcome, between⟩
  cases outcome with
  | done value =>
    refine ⟨fun gives => ⟨value, between, rfl, gives⟩, ?_⟩
    rintro ⟨_, _, ⟨⟩, gives⟩
    exact gives
  | failed error => simp
  | exhausted => simp

/-- A row of statements is left by the first of them that is left. -/
theorem sequence_returned_iff {run : Stmt → Run Flow} {statements : List Stmt} {machine : Machine}
    {value : Value} :
    (sequence run statements machine).1 = .done (.returned value) ↔
      ∃ before statement after between, statements = before ++ statement :: after ∧
        sequence run before machine = (.done .normal, between) ∧
        (run statement between).1 = .done (.returned value) := by
  induction statements generalizing machine with
  | nil =>
    have normal : (sequence run [] machine).1 = .done .normal := rfl
    simp [normal]
  | cons first others ih =>
    change (Run.bind (run first) _ machine).1 = _ ↔ _
    rw [fst_bind_eq_done_iff]
    constructor
    · rintro ⟨flow, between, ran, goesOn⟩
      cases flow with
      | returned other =>
        cases goesOn
        exact ⟨[], first, others, machine, rfl, rfl, by rw [ran]⟩
      | normal =>
        obtain ⟨before, statement, after, later, rfl, passed, left⟩ := ih.1 goesOn
        refine ⟨first :: before, statement, after, later, rfl, ?_, left⟩
        show Run.bind (run first) _ machine = _
        simp only [Run.bind, ran, passed]
    · rintro ⟨before, statement, after, between, shape, passed, left⟩
      cases before with
      | nil =>
        obtain ⟨rfl, rfl⟩ := List.cons.inj shape
        cases passed
        exact ⟨.returned value, (run first machine).2, Prod.ext left rfl, rfl⟩
      | cons head before =>
        obtain ⟨rfl, rfl⟩ := List.cons.inj shape
        change Run.bind (run first) _ machine = _ at passed
        rcases ran : run first machine with ⟨outcome, reached⟩
        simp only [Run.bind, ran] at passed
        cases outcome with
        | done flow =>
          cases flow with
          | normal =>
            have later := ih.2 ⟨before, statement, after, between, rfl, passed, left⟩
            exact ⟨.normal, reached, rfl, later⟩
          | returned other => cases passed
        | failed error => cases passed
        | exhausted => cases passed

end Run

section Levels

variable {fuel : Nat} {machine : Machine} {value : Value}
variable (known : ∀ (statement : Stmt) (machine : Machine) (value : Value),
  (execute fuel statement machine).1 = .done (.returned value) ↔
    ∃ exit, statement.ComesTo fuel machine exit ∧ exit.outcome = .done value)
include known

/-- What holds of statements holds of rows of them. -/
theorem row_returned_iff {statements : List Stmt} :
    (Run.sequence (execute fuel) statements machine).1 = .done (.returned value) ↔
      ∃ exit, Stmt.RowComesTo fuel statements machine exit ∧ exit.outcome = .done value := by
  rw [Run.sequence_returned_iff]
  constructor
  · rintro ⟨before, statement, after, between, shape, passed, left⟩
    obtain ⟨exit, comes, gives⟩ := (known statement between value).1 left
    exact ⟨exit, ⟨before, statement, after, between, shape, passed, comes⟩, gives⟩
  · rintro ⟨exit, ⟨before, statement, after, between, shape, passed, comes⟩, gives⟩
    exact ⟨before, statement, after, between, shape, passed, (known _ _ _).2 ⟨exit, comes, gives⟩⟩

theorem block_returned_iff {statements : List Stmt} :
    (execute (fuel + 1) (.block statements) machine).1 = .done (.returned value) ↔
      ∃ exit, (Stmt.block statements).ComesTo (fuel + 1) machine exit ∧
        exit.outcome = .done value := by
  have inside : (execute (fuel + 1) (.block statements) machine).1 =
      (Run.sequence (execute fuel) statements
        (machine.entering { enclosing := some machine.scope })).1 := rfl
  rw [inside, row_returned_iff known]
  constructor
  · rintro ⟨exit, ⟨before, statement, after, between, rfl, passed, comes⟩, gives⟩
    exact ⟨exit, .block passed comes, gives⟩
  · rintro ⟨exit, comes, gives⟩
    obtain _ | ⟨passed, inner⟩ := comes
    exact ⟨exit, ⟨_, _, _, _, rfl, passed, inner⟩, gives⟩

theorem branch_returned_iff {condition : Expr} {consequent : Stmt} {alternative : Option Stmt} :
    (execute (fuel + 1) (.branch condition consequent alternative) machine).1 =
        .done (.returned value) ↔
      ∃ exit, (Stmt.branch condition consequent alternative).ComesTo (fuel + 1) machine exit ∧
        exit.outcome = .done value := by
  change (Run.bind (evaluate fuel condition) _ machine).1 = _ ↔ _
  rw [Run.fst_bind_eq_done_iff]
  constructor
  · rintro ⟨tested, between, found, chosen⟩
    cases truth : tested.isTruthy with
    | true =>
      simp only [truth, if_true] at chosen
      obtain ⟨exit, comes, gives⟩ := (known _ _ _).1 chosen
      exact ⟨exit, .consequent found truth comes, gives⟩
    | false =>
      simp only [truth, Bool.false_eq_true, if_false] at chosen
      cases alternative with
      | none => cases chosen
      | some alternative =>
        obtain ⟨exit, comes, gives⟩ := (known _ _ _).1 chosen
        exact ⟨exit, .alternative found truth comes, gives⟩
  · rintro ⟨exit, comes, gives⟩
    cases comes with
    | @consequent _ _ tested _ _ _ between _ found truthy inner =>
      refine ⟨tested, between, found, ?_⟩
      simp only [truthy, if_true]
      exact (known _ _ _).2 ⟨exit, inner, gives⟩
    | @alternative _ _ tested _ _ _ between _ found falsy inner =>
      refine ⟨tested, between, found, ?_⟩
      simp only [falsy, Bool.false_eq_true, if_false]
      exact (known _ _ _).2 ⟨exit, inner, gives⟩

theorem loop_returned_iff {condition : Expr} {body : Stmt} :
    (execute (fuel + 1) (.loop condition body) machine).1 = .done (.returned value) ↔
      ∃ exit, (Stmt.loop condition body).ComesTo (fuel + 1) machine exit ∧
        exit.outcome = .done value := by
  change (Run.bind (evaluate fuel condition) _ machine).1 = _ ↔ _
  rw [Run.fst_bind_eq_done_iff]
  constructor
  · rintro ⟨tested, between, found, turned⟩
    cases truth : tested.isTruthy with
    | false =>
      simp only [truth, Bool.false_eq_true, if_false] at turned
      cases turned
    | true =>
      simp only [truth, if_true] at turned
      change (Run.bind (execute fuel body) _ between).1 = _ at turned
      obtain ⟨flow, after, ran, goesOn⟩ := Run.fst_bind_eq_done_iff.1 turned
      cases flow with
      | returned other =>
        cases goesOn
        obtain ⟨exit, comes, gives⟩ := (known body between value).1 (by rw [ran])
        exact ⟨exit, .turn found truth comes, gives⟩
      | normal =>
        obtain ⟨exit, comes, gives⟩ := (known _ _ _).1 goesOn
        exact ⟨exit, .laterTurn found truth ran comes, gives⟩
  · rintro ⟨exit, comes, gives⟩
    cases comes with
    | @turn _ _ tested _ _ between _ found truthy inner =>
      refine ⟨tested, between, found, ?_⟩
      have left := (known _ _ _).2 ⟨exit, inner, gives⟩
      simp only [truthy, if_true]
      exact Run.fst_bind_eq_done_iff.2 ⟨.returned value, _, Prod.ext left rfl, rfl⟩
    | @laterTurn _ _ tested _ _ between after _ found truthy passed inner =>
      refine ⟨tested, between, found, ?_⟩
      simp only [truthy, if_true]
      exact Run.fst_bind_eq_done_iff.2 ⟨.normal, after, passed, (known _ _ _).2 ⟨exit, inner, gives⟩⟩

omit known in
theorem ret_returned_iff {keyword : Token} {value? : Option Expr} :
    (execute (fuel + 1) (.ret keyword value?) machine).1 = .done (.returned value) ↔
      ∃ exit, (Stmt.ret keyword value?).ComesTo (fuel + 1) machine exit ∧
        exit.outcome = .done value := by
  have only (exit : Exit) : (Stmt.ret keyword value?).ComesTo (fuel + 1) machine exit ↔
      exit = ⟨value?, machine, fuel⟩ := by
    refine ⟨fun comes => ?_, fun same => same ▸ .ret⟩
    cases comes
    rfl
  simp only [only, exists_eq_left]
  cases value? with
  | none =>
    change Outcome.done (Flow.returned .nil) = _ ↔ Outcome.done Value.nil = _
    simp
  | some expression =>
    change (Run.bind (evaluate fuel expression) (fun value => Run.pure (Flow.returned value))
      machine).1 = _ ↔ (evaluate fuel expression machine).1 = _
    simp only [Run.bind, Run.pure]
    rcases evaluate fuel expression machine with ⟨outcome, after⟩
    cases outcome <;> simp

end Levels

/-- A statement that only computes or declares is never left. -/
theorem not_returned_of_normal {α : Type} {first : Run α} {machine : Machine} {value : Value} :
    (Run.bind first (fun _ => Run.pure Flow.normal) machine).1 ≠ .done (.returned value) := by
  intro left
  obtain ⟨_, _, _, wrong⟩ := Run.fst_bind_eq_done_iff.1 left
  cases wrong

/-- A statement is left with a value exactly if it comes to a return that gives this value. -/
theorem execute_returned_iff (fuel : Nat) (statement : Stmt) (machine : Machine) (value : Value) :
    (execute fuel statement machine).1 = .done (.returned value) ↔
      ∃ exit, statement.ComesTo fuel machine exit ∧ exit.outcome = .done value := by
  induction fuel generalizing statement machine value with
  | zero =>
    refine ⟨nofun, ?_⟩
    rintro ⟨exit, comes, _⟩
    cases comes
  | succ fuel ih =>
    cases statement with
    | expression computed => exact ⟨fun left => absurd left not_returned_of_normal, nofun⟩
    | declare name initializer =>
      refine ⟨fun left => ?_, nofun⟩
      cases initializer with
      | none => exact absurd left not_returned_of_normal
      | some initializer =>
        obtain ⟨_, _, _, declared⟩ := Run.fst_bind_eq_done_iff.1 left
        exact absurd declared not_returned_of_normal
    | block statements => exact block_returned_iff ih
    | branch condition consequent alternative => exact branch_returned_iff ih
    | loop condition body => exact loop_returned_iff ih
    | function name parameters body =>
      exact ⟨fun left => absurd left not_returned_of_normal, nofun⟩
    | ret keyword value? => exact ret_returned_iff

end TinyScript
