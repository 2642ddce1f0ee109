import TinyScript.Proofs.Restored

/-! The depth of calls. A call that would nest deeper than the limit is refused before anything of
it happens, and no other call is. Between the tasks a host gives it, a machine is in its global
scope and in no call. -/
namespace TinyScript

/-- Whether so many arguments may be given. -/
def Arity.Fits (count : Nat) : Arity → Prop
  | .variadic => True
  | .fixed expected => count = expected

/-- What a host can ask of a machine. -/
inductive Task where
  | evaluate (expression : Expr)
  | execute (statement : Stmt)
  | interpret (statements : List Stmt)
  /-- Statements in a scope that is there already. -/
  | executeIn (scope : ScopeId) (statements : List Stmt)
  /-- Statements in a new scope. -/
  | executeBlock (enclosing : ScopeId) (statements : List Stmt)

namespace Task

def Answer : Task → Type
  | evaluate _ => Value
  | interpret _ => Unit
  | execute _ | executeIn _ _ | executeBlock _ _ => Flow

def run (fuel : Nat) : (task : Task) → Run task.Answer
  | evaluate expression => TinyScript.evaluate fuel expression
  | execute statement => TinyScript.execute fuel statement
  | interpret statements => TinyScript.interpret fuel statements
  | executeIn scope statements =>
    Run.inScope scope (Run.sequence (TinyScript.execute fuel) statements)
  | executeBlock enclosing statements =>
    Run.block (TinyScript.execute fuel) enclosing statements

/-- The task with its history. -/
def traced (fuel : Nat) : (task : Task) → Traced task.Answer
  | evaluate expression => Traced.evaluate fuel expression
  | execute statement => Traced.execute fuel statement
  | interpret statements => Traced.interpret fuel statements
  | executeIn scope statements =>
    Traced.inScope scope (Traced.sequence (Traced.execute fuel) statements)
  | executeBlock enclosing statements =>
    Traced.block (Traced.execute fuel) enclosing statements

theorem holds_of_compositional {holds : ∀ α : Type, Traced α → Run α → Prop}
    (law : Compositional holds) (fuel : Nat) (task : Task) :
    holds task.Answer (task.traced fuel) (task.run fuel) := by
  obtain ⟨values, flows⟩ := law.evaluation fuel
  cases task with
  | evaluate expression => exact values expression
  | execute statement => exact flows statement
  | interpret statements => exact law.interpret fuel statements
  | executeIn scope statements => exact law.inScope scope (law.sequence flows statements)
  | executeBlock enclosing statements => exact law.block flows enclosing statements

theorem restored (fuel : Nat) (task : Task) (machine : Machine)
    (bound : machine.depth ≤ depthLimit) : machine.Restored (task.run fuel machine).2 :=
  Traced.restored_of_history (holds_of_compositional Traced.compositional_history fuel task)
    machine bound

/-- What becomes of a machine that is given tasks one after another, each with its own fuel. -/
def serve (tasks : List (Nat × Task)) (machine : Machine) : Machine :=
  tasks.foldl (fun machine task => (task.2.run task.1 machine).2) machine

theorem serve_restored (tasks : List (Nat × Task)) (machine : Machine)
    (bound : machine.depth ≤ depthLimit) : machine.Restored (serve tasks machine) := by
  induction tasks generalizing machine with
  | nil => exact .refl machine
  | cons task others ih =>
    have first := task.2.restored task.1 machine bound
    exact first.trans (ih _ (first.depth_le bound))

end Task

/-- A call with fitting arguments reaches its routine or is refused for its depth. -/
theorem Run.call_of_fits (execute : Stmt → Run Flow) {callable : Callable}
    {arguments : List Value} (fits : callable.routine.arity.Fits arguments.length) (paren : Token) :
    Run.call execute (.callable callable) arguments paren =
      Run.nested paren (Run.routine execute arguments paren callable.routine) := by
  rw [Run.call_callable]
  cases accepted : callable.routine.arity with
  | variadic => rfl
  | fixed expected =>
    rw [accepted] at fits
    exact if_pos fits

theorem Traced.call_of_fits (execute : Stmt → Traced Flow) {callable : Callable}
    {arguments : List Value} (fits : callable.routine.arity.Fits arguments.length) (paren : Token) :
    Traced.call execute (.callable callable) arguments paren =
      Traced.nested paren (Traced.routine execute arguments paren callable.routine) := by
  simp only [Traced.call]
  cases accepted : callable.routine.arity with
  | variadic => rfl
  | fixed expected =>
    rw [accepted] at fits
    exact if_pos fits

theorem callNative_not_overflow (builtin : Native) (arguments : List Value) (paren token : Token)
    (machine : Machine) :
    (callNative builtin arguments paren machine).1 ≠ .failed ⟨.stackOverflow, token⟩ := by
  intro overflow
  cases builtin with
  | clock => cases overflow
  | print => cases overflow
  | println => cases overflow
  | inHex =>
    simp only [callNative] at overflow
    cases found : arguments.mapM Value.hexText? with
    | some texts =>
      rw [found] at overflow
      cases overflow
    | none =>
      rw [found] at overflow
      cases overflow

section Routines

variable (fuel : Nat) (arguments : List Value) (paren : Token)

/-- A function's own part of a call comes back like any other evaluation. -/
theorem callFunctionIn_restored (function : Function) (scope : ScopeId) (machine : Machine)
    (bound : machine.depth ≤ depthLimit) :
    machine.Restored
      (Run.callFunctionIn (execute fuel) arguments function scope machine).2 := by
  have flows := (Traced.compositional_history.evaluation fuel).2
  have recorded := Traced.compositional_history.callFunctionIn flows function arguments scope
  exact Traced.restored_of_history recorded machine bound

/-- A called function makes a scope and keeps it. -/
theorem callFunction_grows (function : Function) (machine : Machine)
    (bound : machine.depth ≤ depthLimit) :
    machine.Restored (Run.callFunction (execute fuel) function arguments machine).2 ∧
      machine.heap.scopes.size <
        (Run.callFunction (execute fuel) function arguments machine).2.heap.scopes.size := by
  obtain ⟨opened, grown⟩ := Run.newScope_grows function.closure machine
  have kept := callFunctionIn_restored fuel arguments function machine.heap.scopes.size
    (Run.newScope function.closure machine).2 (opened.depth_le bound)
  exact ⟨opened.trans kept, Nat.lt_of_lt_of_le grown kept.scopes⟩

theorem routine_restored (routine : Routine) (machine : Machine)
    (bound : machine.depth ≤ depthLimit) :
    machine.Restored (Run.routine (execute fuel) arguments paren routine machine).2 := by
  cases routine with
  | builtIn builtin => exact Run.callNative_restored builtin arguments paren machine
  | declared function => exact (callFunction_grows fuel arguments function machine bound).1

/-- The failure of a routine that has been entered is never mistaken for a refused call: a function
has made a scope by then, and a native function calls nothing. -/
theorem routine_not_refused (routine : Routine) (token : Token) (machine : Machine)
    (bound : machine.depth ≤ depthLimit)
    (overflow : (Run.routine (execute fuel) arguments paren routine machine).1 =
      .failed ⟨.stackOverflow, token⟩) :
    (Run.routine (execute fuel) arguments paren routine machine).2.heap ≠ machine.heap := by
  cases routine with
  | builtIn builtin =>
    exact absurd overflow (callNative_not_overflow builtin arguments paren token machine)
  | declared function =>
    intro same
    have grown := (callFunction_grows fuel arguments function machine bound).2
    exact Nat.ne_of_lt grown (congrArg (fun heap => heap.scopes.size) same.symm)

end Routines

section Calls

variable {fuel : Nat} {callable : Callable} {arguments : List Value}
variable (fits : callable.routine.arity.Fits arguments.length) (paren : Token) (machine : Machine)
include fits

/-- Below the limit, a call runs its routine one call deeper and comes back with what that gives. -/
theorem call_below_limit (below : machine.depth < depthLimit) :
    Run.call (execute fuel) (.callable callable) arguments paren machine =
      let (outcome, reached) := Run.routine (execute fuel) arguments paren callable.routine
        { machine with depth := machine.depth + 1 }
      (outcome, { reached with depth := machine.depth }) := by
  have restored := routine_restored fuel arguments paren callable.routine
    { machine with depth := machine.depth + 1 } below
  rw [Run.call_of_fits (execute fuel) fits paren]
  simp only [Run.nested, Nat.not_le.mpr below, if_false, restored.depth, Nat.add_sub_cancel]

/-- A call is refused exactly at the limit. -/
theorem call_refused_iff (bound : machine.depth ≤ depthLimit) :
    Run.call (execute fuel) (.callable callable) arguments paren machine =
        (.failed ⟨.stackOverflow, paren⟩, machine) ↔
      machine.depth = depthLimit := by
  constructor
  · intro refused
    rcases Nat.lt_or_eq_of_le bound with below | full
    · -- Had the call been made, its failure could not have left the heap as it was.
      rw [call_below_limit fits paren machine below] at refused
      have overflow := congrArg Prod.fst refused
      have heap := congrArg (fun answer => answer.2.heap) refused
      exact absurd heap (routine_not_refused fuel arguments paren callable.routine paren
        { machine with depth := machine.depth + 1 } below overflow)
    · exact full
  · intro full
    rw [Run.call_of_fits (execute fuel) fits paren]
    simp only [Run.nested, full, Nat.le_refl, if_true]

end Calls

section CallExpressions

variable {fuel : Nat} {callee : Expr} {arguments : List Expr} {machine between ready : Machine}
variable {callable : Callable} {values : List Value}
variable (called : evaluate fuel callee machine = (.done (.callable callable), between))
variable (given : Run.collect (evaluate fuel) arguments between = (.done values, ready))
include called given

/-- A call expression computes its callee and its arguments and then calls. -/
theorem evaluate_call (paren : Token) :
    evaluate (fuel + 1) (.call callee paren arguments) machine =
      Run.call (execute fuel) (.callable callable) values paren ready := by
  change Run.bind (evaluate fuel callee) (fun callee =>
    Run.bind (Run.collect (evaluate fuel) arguments) fun arguments =>
      Run.call (execute fuel) callee arguments paren) machine = _
  simp only [Run.bind, called, given]

/-- A call that is made shows in the history. -/
theorem entered_mem_history (fits : callable.routine.arity.Fits values.length) (paren : Token)
    (below : ready.depth < depthLimit) :
    { ready with depth := ready.depth + 1 } ∈
      (Traced.evaluate (fuel + 1) (.call callee paren arguments)).history machine := by
  have same := (Traced.compositional_result.evaluation fuel).1
  have sameCallee : (Traced.evaluate fuel callee).result machine =
      (.done (.callable callable), between) := by
    rw [same callee]
    exact called
  have sameArguments : (Traced.collect (Traced.evaluate fuel) arguments).result between =
      (.done values, ready) := by
    rw [Traced.compositional_result.collect same arguments]
    exact given
  change _ ∈ Traced.history (Traced.evaluate fuel callee >>= fun callee =>
    Traced.collect (Traced.evaluate fuel) arguments >>= fun arguments =>
      Traced.call (Traced.execute fuel) callee arguments paren) machine
  rw [Traced.history_bind sameCallee, Traced.history_bind sameArguments,
    Traced.call_of_fits _ fits]
  apply List.mem_append_right
  apply List.mem_append_right
  exact Traced.mem_history_nested _ paren below

/-- By then the machine has come back from computing them. -/
theorem depth_when_ready (bound : machine.depth ≤ depthLimit) : ready.depth = machine.depth := by
  have computed := (Traced.compositional_history.evaluation fuel).1
  have first := Traced.restored_of_history (computed callee) machine bound
  rw [called] at first
  have others := Traced.restored_of_history
    (Traced.compositional_history.collect computed arguments) between (first.depth_le bound)
  rw [given] at others
  exact (first.trans others).depth

end CallExpressions

/-- Whatever comes of a task, the machine is back in its scope and at its call depth; on the way no
call nests deeper than the limit; a call that could be made is refused exactly at the limit; and so
a machine is in its global scope and in no call between any tasks it is given. -/
theorem scope_and_depth_come_back :
    (∀ (fuel : Nat) (task : Task) (machine : Machine), machine.depth ≤ depthLimit →
      machine.Restored (task.run fuel machine).2 ∧
      (task.traced fuel).result machine = task.run fuel machine ∧
      ∀ passed ∈ (task.traced fuel).history machine, passed.depth ≤ depthLimit) ∧
    (∀ (fuel : Nat) (callee : Expr) (paren : Token) (arguments : List Expr)
      (machine between ready : Machine) (callable : Callable) (values : List Value),
      machine.depth ≤ depthLimit →
      evaluate fuel callee machine = (.done (.callable callable), between) →
      Run.collect (evaluate fuel) arguments between = (.done values, ready) →
      callable.routine.arity.Fits values.length →
      (evaluate (fuel + 1) (.call callee paren arguments) machine =
          (.failed ⟨.stackOverflow, paren⟩, ready) ↔ machine.depth = depthLimit) ∧
      (machine.depth < depthLimit →
        { ready with depth := machine.depth + 1 } ∈
          (Traced.evaluate (fuel + 1) (.call callee paren arguments)).history machine ∧
        evaluate (fuel + 1) (.call callee paren arguments) machine =
          let (outcome, reached) := Run.routine (execute fuel) values paren callable.routine
            { ready with depth := machine.depth + 1 }
          (outcome, { reached with depth := machine.depth }))) ∧
    (∀ (readings : Nat → Int64) (tasks : List (Nat × Task)),
      (Task.serve tasks (Machine.start readings)).scope =
        (Task.serve tasks (Machine.start readings)).globals ∧
      (Task.serve tasks (Machine.start readings)).depth = 0) := by
  refine ⟨?_, ?_, ?_⟩
  · intro fuel task machine bound
    obtain ⟨same, balanced⟩ := Task.holds_of_compositional Traced.compositional_history fuel task
    exact ⟨task.restored fuel machine bound, congrFun same machine, (balanced machine bound).2⟩
  · intro fuel callee paren arguments machine between ready callable values bound called given fits
    have level := depth_when_ready called given bound
    rw [evaluate_call called given paren, ← level]
    rw [← level] at bound
    refine ⟨call_refused_iff fits paren ready bound, fun below => ⟨?_, ?_⟩⟩
    · exact entered_mem_history called given fits paren below
    · exact call_below_limit fits paren ready below
  · intro readings tasks
    have restored := Task.serve_restored tasks (Machine.start readings) (Nat.zero_le _)
    exact ⟨restored.scope.trans restored.globals.symm, restored.depth⟩

private def stamp (kind : TokenKind) (lexeme : String) : Token :=
  { kind, lexeme, line := 1, span := ⟨0, 1⟩ }

private def descent : Expr :=
  .call (.var (stamp .identifier "down")) (stamp .rightParen ")") []

/-- A machine almost at the limit, with a function that calls itself. -/
private def lowMachine : Machine :=
  let declared := Task.serve
    [(1, .execute (.function (stamp .identifier "down") [] [.expression descent]))]
    (Machine.start fun _ => 0)
  { declared with depth := 254 }

private def fullMachine : Machine := { lowMachine with depth := depthLimit }

/-- Almost at the limit, the call is made, the one inside it is refused, and the machine comes back
all the same; at the limit, the call itself is refused. -/
theorem descent_comes_back :
    lowMachine.depth ≤ depthLimit ∧
      ((Task.evaluate descent).run 8 lowMachine).1 =
        .failed ⟨.stackOverflow, stamp .rightParen ")"⟩ ∧
      lowMachine.Restored ((Task.evaluate descent).run 8 lowMachine).2 ∧
      fullMachine.depth ≤ depthLimit ∧
      evaluate 2 descent fullMachine =
        (.failed ⟨.stackOverflow, stamp .rightParen ")"⟩, fullMachine) := by
  have low : lowMachine.depth ≤ depthLimit := by decide
  have full : fullMachine.depth ≤ depthLimit := Nat.le_refl _
  obtain ⟨restored, _⟩ := scope_and_depth_come_back.1 8 (.evaluate descent) lowMachine low
  obtain ⟨refused, _⟩ := scope_and_depth_come_back.2.1 1 (.var (stamp .identifier "down"))
    (stamp .rightParen ")") [] fullMachine fullMachine fullMachine _ [] full rfl rfl rfl
  exact ⟨low, rfl, restored, full, refused.mpr rfl⟩

end TinyScript
