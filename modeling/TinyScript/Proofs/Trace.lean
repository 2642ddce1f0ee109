import TinyScript.Run.Eval

/-! Evaluation with its history: each computation of the evaluator once more, now together with the
machines it passes through and the operators it applies. Whatever holds of the single steps and carries
over to what they are put together to holds of all evaluation; first of all, that leaving the history
out gives the evaluator back. -/
namespace TinyScript

namespace Run

variable (execute : Stmt → Run Flow) (arguments : List Value)

/-- What a call of a function does once its scope is there. -/
def callFunctionIn (function : Function) (scope : ScopeId) : Run Value := do
  bindParameters scope (function.parameters.zip arguments)
  match ← inScope scope (sequence execute function.body) with
  | .normal => return .nil
  | .returned value => return value

/-- What a call does once it is accepted. -/
def routine (paren : Token) : Routine → Run Value
  | .builtIn builtin => callNative builtin arguments paren
  | .declared function => callFunction execute function arguments

theorem call_callable (callable : Callable) (paren : Token) :
    call execute (.callable callable) arguments paren =
      match callable.routine.arity with
      | .variadic => nested paren (routine execute arguments paren callable.routine)
      | .fixed expected =>
        if arguments.length = expected then
          nested paren (routine execute arguments paren callable.routine)
        else fail (.arityMismatch expected arguments.length) paren := by
  obtain ⟨identity, routine⟩ := callable
  cases routine <;> rfl

end Run

/-- A binary operator at work: the node it stands at, and the values its operands have come to. -/
structure Application where
  first : Expr
  operator : Token
  second : Expr
  left : Value
  right : Value

/-- What the operator makes of the values. -/
def Application.result (application : Application) : Except RuntimeError Value :=
  applyOperator application.operator application.left application.right

/-- What a computation leaves behind: how it ends, the machines it passed through and the operators it
applied, both in order. -/
structure Record (α : Type) where
  ending : Outcome RuntimeError α × Machine
  passed : List Machine
  applied : List Application

/-- The record of a detour, whose body has been recorded from `entered` on. -/
def Record.detour {α : Type} (recorded : Record α) (entered left : Machine) : Record α where
  ending := (recorded.ending.1, left)
  passed := entered :: recorded.passed ++ [left]
  applied := recorded.applied

/-- A computation that also keeps a record. -/
def Traced (α : Type) : Type := Machine → Record α

namespace Traced

variable {α β : Type}

/-- How the computation ends. -/
def result (traced : Traced α) : Run α := fun machine => (traced machine).ending

/-- The machines the computation passes through. -/
def history (traced : Traced α) (machine : Machine) : List Machine := (traced machine).passed

/-- The operators the computation applies. -/
def applied (traced : Traced α) (machine : Machine) : List Application := (traced machine).applied

protected def pure (value : α) : Traced α := fun machine => ⟨(.done value, machine), [], []⟩

protected def bind (first : Traced α) (next : α → Traced β) : Traced β := fun machine =>
  match first machine with
  | ⟨(.done value, reached), passed, applied⟩ =>
    let further := next value reached
    ⟨further.ending, passed ++ further.passed, applied ++ further.applied⟩
  | ⟨(.failed error, reached), passed, applied⟩ => ⟨(.failed error, reached), passed, applied⟩
  | ⟨(.exhausted, reached), passed, applied⟩ => ⟨(.exhausted, reached), passed, applied⟩

instance : Monad Traced where
  pure := Traced.pure
  bind := Traced.bind

/-- A run taken as a single step. -/
def step (run : Run α) : Traced α := fun machine => ⟨run machine, [(run machine).2], []⟩

instance : MonadLift Run Traced := ⟨step⟩

/-- An operator applied as a single step, which the record shows. -/
def apply (application : Application) : Traced Value := fun machine =>
  { step (Run.ofExcept application.result) machine with applied := [application] }

/-- Passes through the machine that enters the scope and the one that has left it. -/
def inScope (scope : ScopeId) (body : Traced α) : Traced α := fun machine =>
  let entered := { machine with scope }
  let recorded := body entered
  recorded.detour entered { recorded.ending.2 with scope := machine.scope }

/-- Passes through the machine one call deeper and the one back from there, unless the call is
refused. -/
def nested (paren : Token) (body : Traced α) : Traced α := fun machine =>
  if depthLimit ≤ machine.depth then step (Run.fail .stackOverflow paren) machine
  else
    let entered := { machine with depth := machine.depth + 1 }
    let recorded := body entered
    recorded.detour entered { recorded.ending.2 with depth := recorded.ending.2.depth - 1 }

def collect (compute : α → Traced β) : List α → Traced (List β)
  | [] => pure []
  | first :: others => do
    let value ← compute first
    let values ← collect compute others
    return value :: values

def sequence (execute : Stmt → Traced Flow) : List Stmt → Traced Flow
  | [] => return .normal
  | first :: others => do
    match ← execute first with
    | .normal => sequence execute others
    | .returned value => return .returned value

def block (execute : Stmt → Traced Flow) (enclosing : ScopeId) (statements : List Stmt) :
    Traced Flow := do
  let scope ← Run.newScope enclosing
  inScope scope (sequence execute statements)

def bindParameters (scope : ScopeId) : List (Token × Value) → Traced Unit
  | [] => return ()
  | (parameter, argument) :: others => do
    Run.defineIn scope parameter argument
    bindParameters scope others

def callFunctionIn (execute : Stmt → Traced Flow) (arguments : List Value) (function : Function)
    (scope : ScopeId) : Traced Value := do
  bindParameters scope (function.parameters.zip arguments)
  match ← inScope scope (sequence execute function.body) with
  | .normal => return .nil
  | .returned value => return value

def callFunction (execute : Stmt → Traced Flow) (function : Function) (arguments : List Value) :
    Traced Value := do
  let scope ← Run.newScope function.closure
  callFunctionIn execute arguments function scope

def routine (execute : Stmt → Traced Flow) (arguments : List Value) (paren : Token) :
    Routine → Traced Value
  | .builtIn builtin => step (callNative builtin arguments paren)
  | .declared function => callFunction execute function arguments

def call (execute : Stmt → Traced Flow) (callee : Value) (arguments : List Value)
    (paren : Token) : Traced Value :=
  match callee with
  | .callable callable =>
    match callable.routine.arity with
    | .variadic => nested paren (routine execute arguments paren callable.routine)
    | .fixed expected =>
      if arguments.length = expected then
        nested paren (routine execute arguments paren callable.routine)
      else step (Run.fail (.arityMismatch expected arguments.length) paren)
  | _ => step (Run.fail .notCallable paren)

mutual
/-- Evaluates an expression and keeps the history. -/
def evaluate : (fuel : Nat) → Expr → Traced Value
  | 0, _ => step Run.exhausted
  | fuel + 1, expression =>
    match expression with
    | .literal value => return .ofPrimitive value
    | .grouping inner => evaluate fuel inner
    | .unary operator right => do
      let right ← evaluate fuel right
      Run.ofExcept (applySign operator right)
    | .binary first operator second => do
      let left ← evaluate fuel first
      let right ← evaluate fuel second
      apply ⟨first, operator, second, left, right⟩
    | .logical left operator right => do
      let left ← evaluate fuel left
      if settles operator left then return left else evaluate fuel right
    | .var name => step (Run.lookup name)
    | .assign name value => do
      let value ← evaluate fuel value
      Run.assign name value
      return value
    | .call callee paren arguments => do
      let callee ← evaluate fuel callee
      let arguments ← collect (evaluate fuel) arguments
      call (execute fuel) callee arguments paren
    | .increment name sign => do
      match ← Run.lookup name with
      | .int value =>
        let value ← Run.ofExcept (stepped sign value)
        Run.assign name value
        return value
      | _ => Run.fail .operandMustBeInteger sign

/-- Runs a statement and keeps the history. -/
def execute : (fuel : Nat) → Stmt → Traced Flow
  | 0, _ => step Run.exhausted
  | fuel + 1, statement =>
    match statement with
    | .expression value => do
      let _ ← evaluate fuel value
      return .normal
    | .declare name initializer => do
      let value ←
        match initializer with
        | some initializer => evaluate fuel initializer
        | none => pure .nil
      Run.define name value
      return .normal
    | .block statements => do block (execute fuel) (← Run.currentScope) statements
    | .branch condition consequent alternative => do
      if (← evaluate fuel condition).isTruthy then execute fuel consequent
      else
        match alternative with
        | some alternative => execute fuel alternative
        | none => return .normal
    | .loop condition body => do
      if (← evaluate fuel condition).isTruthy then
        match ← execute fuel body with
        | .normal => execute fuel (.loop condition body)
        | .returned value => return .returned value
      else return .normal
    | .function name parameters body => do
      let closure ← Run.currentScope
      let callable ← Run.newCallable (.declared { name, parameters, body, closure })
      Run.define name (.callable callable)
      return .normal
    | .ret _ value => do
      match value with
      | some value => return .returned (← evaluate fuel value)
      | none => return .returned .nil
end

def interpret (fuel : Nat) (statements : List Stmt) : Traced Unit := do
  let _ ← sequence (execute fuel) statements
  return ()

end Traced

/-- The runs that evaluation is put together from. -/
inductive Run.Elementary : {α : Type} → Run α → Prop
  | exhausted {α : Type} : Elementary (Run.exhausted : Run α)
  | fail {α : Type} (cause : RuntimeCause) (token : Token) :
      Elementary (Run.fail cause token : Run α)
  | ofExcept {α : Type} (answer : Except RuntimeError α) : Elementary (Run.ofExcept answer)
  | lookup (name : Token) : Elementary (Run.lookup name)
  | assign (name : Token) (value : Value) : Elementary (Run.assign name value)
  | define (name : Token) (value : Value) : Elementary (Run.define name value)
  | defineIn (scope : ScopeId) (name : Token) (value : Value) :
      Elementary (Run.defineIn scope name value)
  | currentScope : Elementary Run.currentScope
  | newScope (enclosing : ScopeId) : Elementary (Run.newScope enclosing)
  | newCallable (routine : Routine) : Elementary (Run.newCallable routine)
  | native (builtin : Native) (arguments : List Value) (paren : Token) :
      Elementary (callNative builtin arguments paren)

/-- A property of runs and their histories that evaluation cannot break: elementary runs have it, and
so has what is put together from runs that have it. -/
structure Compositional (holds : ∀ α : Type, Traced α → Run α → Prop) : Prop where
  pure {α : Type} (value : α) : holds α (pure value) (pure value)
  step {α : Type} {run : Run α} : run.Elementary → holds α (Traced.step run) run
  apply (application : Application) :
    holds Value (Traced.apply application) (Run.ofExcept application.result)
  bind {α β : Type} {traced : Traced α} {run : Run α} {next : α → Traced β} {rest : α → Run β} :
    holds α traced run → (∀ value, holds β (next value) (rest value)) →
      holds β (traced >>= next) (run >>= rest)
  inScope {α : Type} {body : Traced α} {run : Run α} (scope : ScopeId) :
    holds α body run → holds α (body.inScope scope) (run.inScope scope)
  nested {α : Type} {body : Traced α} {run : Run α} (paren : Token) :
    holds α body run → holds α (body.nested paren) (run.nested paren)

namespace Compositional

theorem and {first second : ∀ α : Type, Traced α → Run α → Prop} (one : Compositional first)
    (other : Compositional second) :
    Compositional fun α traced run => first α traced run ∧ second α traced run where
  pure value := ⟨one.pure value, other.pure value⟩
  step elementary := ⟨one.step elementary, other.step elementary⟩
  apply application := ⟨one.apply application, other.apply application⟩
  bind both each :=
    ⟨one.bind both.1 fun value => (each value).1, other.bind both.2 fun value => (each value).2⟩
  inScope scope both := ⟨one.inScope scope both.1, other.inScope scope both.2⟩
  nested paren both := ⟨one.nested paren both.1, other.nested paren both.2⟩

variable {holds : ∀ α : Type, Traced α → Run α → Prop} (law : Compositional holds)
include law

theorem collect {α β : Type} {traced : α → Traced β} {run : α → Run β}
    (each : ∀ element, holds β (traced element) (run element)) (elements : List α) :
    holds (List β) (Traced.collect traced elements) (Run.collect run elements) := by
  induction elements with
  | nil => exact law.pure []
  | cons first others ih =>
    apply law.bind (each first)
    intro value
    apply law.bind ih
    intro values
    exact law.pure (value :: values)

theorem bindParameters (scope : ScopeId) (bindings : List (Token × Value)) :
    holds Unit (Traced.bindParameters scope bindings) (Run.bindParameters scope bindings) := by
  induction bindings with
  | nil => exact law.pure ()
  | cons binding others ih =>
    apply law.bind (law.step (.defineIn scope binding.1 binding.2))
    intro _
    exact ih

section Statements

variable {traced : Stmt → Traced Flow} {run : Stmt → Run Flow}
variable (each : ∀ statement, holds Flow (traced statement) (run statement))
include each

theorem sequence (statements : List Stmt) :
    holds Flow (Traced.sequence traced statements) (Run.sequence run statements) := by
  induction statements with
  | nil => exact law.pure Flow.normal
  | cons first others ih =>
    apply law.bind (each first)
    intro flow
    cases flow with
    | normal => exact ih
    | returned value => exact law.pure (Flow.returned value)

theorem block (enclosing : ScopeId) (statements : List Stmt) :
    holds Flow (Traced.block traced enclosing statements) (Run.block run enclosing statements) := by
  apply law.bind (law.step (.newScope enclosing))
  intro scope
  exact law.inScope scope (law.sequence each statements)

theorem callFunctionIn (function : Function) (arguments : List Value) (scope : ScopeId) :
    holds Value (Traced.callFunctionIn traced arguments function scope)
      (Run.callFunctionIn run arguments function scope) := by
  apply law.bind (law.bindParameters scope _)
  intro _
  apply law.bind (law.inScope scope (law.sequence each function.body))
  intro flow
  cases flow with
  | normal => exact law.pure Value.nil
  | returned value => exact law.pure value

theorem routine (arguments : List Value) (paren : Token) (routine : Routine) :
    holds Value (Traced.routine traced arguments paren routine)
      (Run.routine run arguments paren routine) := by
  cases routine with
  | builtIn builtin => exact law.step (.native builtin arguments paren)
  | declared function =>
    apply law.bind (law.step (.newScope function.closure))
    intro scope
    exact law.callFunctionIn each function arguments scope

theorem call (callee : Value) (arguments : List Value) (paren : Token) :
    holds Value (Traced.call traced callee arguments paren)
      (Run.call run callee arguments paren) := by
  cases callee with
  | callable callable =>
    have entered := law.nested paren (law.routine each arguments paren callable.routine)
    rw [Run.call_callable]
    simp only [Traced.call]
    cases callable.routine.arity with
    | variadic => exact entered
    | fixed expected =>
      by_cases fits : arguments.length = expected
      · simpa only [fits, if_true] using entered
      · simpa only [fits, if_false] using law.step (.fail _ paren)
  | _ => exact law.step (.fail .notCallable paren)

end Statements

section Levels

variable {fuel : Nat}
variable (values : ∀ expression,
  holds Value (Traced.evaluate fuel expression) (TinyScript.evaluate fuel expression))
variable (flows : ∀ statement,
  holds Flow (Traced.execute fuel statement) (TinyScript.execute fuel statement))
include values flows

theorem evaluate_succ (expression : Expr) :
    holds Value (Traced.evaluate (fuel + 1) expression)
      (TinyScript.evaluate (fuel + 1) expression) := by
  cases expression with
  | literal value => exact law.pure (Value.ofPrimitive value)
  | grouping inner => exact values inner
  | unary operator right =>
    apply law.bind (values right)
    intro right
    exact law.step (.ofExcept (applySign operator right))
  | binary first operator second =>
    apply law.bind (values first)
    intro left
    apply law.bind (values second)
    intro right
    exact law.apply ⟨first, operator, second, left, right⟩
  | logical left operator right =>
    apply law.bind (values left)
    intro left
    by_cases settled : settles operator left
    · simpa only [settled, if_true] using law.pure left
    · simpa only [settled, Bool.false_eq_true, if_false] using values right
  | var name => exact law.step (.lookup name)
  | assign name value =>
    apply law.bind (values value)
    intro value
    apply law.bind (law.step (.assign name value))
    intro _
    exact law.pure value
  | call callee paren arguments =>
    apply law.bind (values callee)
    intro callee
    apply law.bind (law.collect values arguments)
    intro arguments
    exact law.call flows callee arguments paren
  | increment name sign =>
    apply law.bind (law.step (.lookup name))
    intro value
    cases value with
    | int value =>
      apply law.bind (law.step (.ofExcept (stepped sign value)))
      intro value
      apply law.bind (law.step (.assign name value))
      intro _
      exact law.pure value
    | _ => exact law.step (.fail .operandMustBeInteger sign)

theorem execute_succ (statement : Stmt) :
    holds Flow (Traced.execute (fuel + 1) statement)
      (TinyScript.execute (fuel + 1) statement) := by
  cases statement with
  | expression value =>
    apply law.bind (values value)
    intro _
    exact law.pure Flow.normal
  | declare name initializer =>
    have declared (value : Value) : holds Flow
        (Traced.step (Run.define name value) >>= fun _ => Pure.pure Flow.normal)
        (Run.define name value >>= fun _ => Pure.pure Flow.normal) :=
      law.bind (law.step (.define name value)) fun _ => law.pure Flow.normal
    cases initializer with
    | some initializer => exact law.bind (values initializer) declared
    | none => exact law.bind (law.pure Value.nil) declared
  | block statements =>
    apply law.bind (law.step .currentScope)
    intro enclosing
    exact law.block flows enclosing statements
  | branch condition consequent alternative =>
    apply law.bind (values condition)
    intro value
    by_cases truthy : value.isTruthy
    · simpa only [truthy, if_true] using flows consequent
    · simp only [truthy]
      cases alternative with
      | some alternative => exact flows alternative
      | none => exact law.pure Flow.normal
  | loop condition body =>
    apply law.bind (values condition)
    intro value
    by_cases truthy : value.isTruthy
    · simp only [truthy, if_true]
      apply law.bind (flows body)
      intro flow
      cases flow with
      | normal => exact flows (.loop condition body)
      | returned value => exact law.pure (Flow.returned value)
    · simpa only [truthy, Bool.false_eq_true, if_false] using law.pure Flow.normal
  | function name parameters body =>
    apply law.bind (law.step .currentScope)
    intro closure
    apply law.bind (law.step (.newCallable _))
    intro callable
    apply law.bind (law.step (.define name (.callable callable)))
    intro _
    exact law.pure Flow.normal
  | ret keyword value =>
    cases value with
    | some value =>
      apply law.bind (values value)
      intro value
      exact law.pure (Flow.returned value)
    | none => exact law.pure (Flow.returned .nil)

end Levels

/-- All evaluation has the property, however deep it nests. -/
theorem evaluation (fuel : Nat) :
    (∀ expression, holds Value (Traced.evaluate fuel expression)
      (TinyScript.evaluate fuel expression)) ∧
    (∀ statement, holds Flow (Traced.execute fuel statement)
      (TinyScript.execute fuel statement)) := by
  induction fuel with
  | zero => exact ⟨fun _ => law.step .exhausted, fun _ => law.step .exhausted⟩
  | succ fuel ih =>
    obtain ⟨values, flows⟩ := ih
    exact ⟨law.evaluate_succ values flows, law.execute_succ values flows⟩

theorem interpret (fuel : Nat) (statements : List Stmt) :
    holds Unit (Traced.interpret fuel statements) (TinyScript.interpret fuel statements) := by
  apply law.bind (law.sequence (law.evaluation fuel).2 statements)
  intro _
  exact law.pure ()

end Compositional

namespace Traced

/-- The history of a computation that goes on is the history of both parts. -/
theorem history_bind {α β : Type} {first : Traced α} {next : α → Traced β}
    {machine reached : Machine} {value : α}
    (ended : first.result machine = (.done value, reached)) :
    (first >>= next).history machine =
      first.history machine ++ (next value).history reached := by
  change (Traced.bind first next machine).passed = first.history machine ++ _
  rcases recorded : first machine with ⟨answer, passed, applied⟩
  simp only [result, recorded] at ended
  simp only [Traced.bind, history, recorded, ended]

theorem mem_history_nested {α : Type} (body : Traced α) (paren : Token) {machine : Machine}
    (below : machine.depth < depthLimit) :
    { machine with depth := machine.depth + 1 } ∈ (body.nested paren).history machine := by
  simp only [history, nested, Nat.not_le.mpr below, if_false]
  exact List.mem_cons_self

/-- Without its history, traced evaluation is evaluation. -/
theorem compositional_result : Compositional fun _ traced run => traced.result = run where
  pure _ := rfl
  step _ := rfl
  apply _ := rfl
  bind := by
    intro α β traced run next rest same each
    subst same
    funext machine
    change (Traced.bind traced next machine).ending = Run.bind traced.result rest machine
    simp only [Traced.bind, Run.bind, result]
    obtain ⟨⟨outcome, reached⟩, passed, applied⟩ := traced machine
    cases outcome with
    | done value => exact congrFun (each value) reached
    | failed error => rfl
    | exhausted => rfl
  inScope := by
    intro α body run scope same
    subst same
    rfl
  nested := by
    intro α body run paren same
    subst same
    funext machine
    by_cases full : depthLimit ≤ machine.depth
    · simp only [result, nested, Run.nested, full, if_true, step, Run.fail]
    · simp only [result, nested, Run.nested, full, if_false, Record.detour]

end Traced

end TinyScript
