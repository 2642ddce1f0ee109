import TinyScript.Run.Native
import TinyScript.Run.Operator

/-! Evaluation. `fuel` bounds how deep evaluation nests, every turn of a loop counting as one level;
a computation that runs out of it is `exhausted`, and more fuel only turns such an outcome into
another. -/
namespace TinyScript

/-- How a statement ends: in order, or on the way out of a function with a value. -/
inductive Flow where
  | normal
  | returned (value : Value)

namespace Run

/-- Runs statements in order until one is on the way out of a function. -/
def sequence (execute : Stmt → Run Flow) : List Stmt → Run Flow
  | [] => return .normal
  | first :: others => do
    match ← execute first with
    | .normal => sequence execute others
    | .returned value => return .returned value

/-- Runs statements in a new scope inside `enclosing`. -/
def block (execute : Stmt → Run Flow) (enclosing : ScopeId) (statements : List Stmt) :
    Run Flow := do
  let scope ← newScope enclosing
  inScope scope (sequence execute statements)

/-- Declares each parameter with its argument. -/
def bindParameters (scope : ScopeId) : List (Token × Value) → Run Unit
  | [] => return ()
  | (parameter, argument) :: others => do
    defineIn scope parameter argument
    bindParameters scope others

/-- Runs the body of a function in a new scope with its parameters. -/
def callFunction (execute : Stmt → Run Flow) (function : Function) (arguments : List Value) :
    Run Value := do
  let scope ← newScope function.closure
  bindParameters scope (function.parameters.zip arguments)
  match ← inScope scope (sequence execute function.body) with
  | .normal => return .nil
  | .returned value => return value

/-- Calls a value with arguments; errors of the call itself are reported at `paren`. -/
def call (execute : Stmt → Run Flow) (callee : Value) (arguments : List Value) (paren : Token) :
    Run Value :=
  match callee with
  | .callable callable =>
    let body : Run Value := nested paren <|
      match callable.routine with
      | .builtIn builtin => callNative builtin arguments paren
      | .declared function => callFunction execute function arguments
    match callable.routine.arity with
    | .variadic => body
    | .fixed expected =>
      if arguments.length = expected then body
      else fail (.arityMismatch expected arguments.length) paren
  | _ => fail .notCallable paren

end Run

mutual
/-- The value of an expression. -/
def evaluate : (fuel : Nat) → Expr → Run Value
  | 0, _ => Run.exhausted
  | fuel + 1, expression =>
    match expression with
    | .literal value => return .ofPrimitive value
    | .grouping inner => evaluate fuel inner
    | .unary operator right => do
      let right ← evaluate fuel right
      Run.ofExcept (applySign operator right)
    | .binary left operator right => do
      let left ← evaluate fuel left
      let right ← evaluate fuel right
      Run.ofExcept (applyOperator operator left right)
    | .logical left operator right => do
      let left ← evaluate fuel left
      if settles operator left then return left else evaluate fuel right
    | .var name => Run.lookup name
    | .assign name value => do
      let value ← evaluate fuel value
      Run.assign name value
      return value
    | .call callee paren arguments => do
      let callee ← evaluate fuel callee
      let arguments ← Run.collect (evaluate fuel) arguments
      Run.call (execute fuel) callee arguments paren
    | .increment name sign => do
      match ← Run.lookup name with
      | .int value =>
        let value ← Run.ofExcept (stepped sign value)
        Run.assign name value
        return value
      | _ => Run.fail .operandMustBeInteger sign

/-- Runs a statement. -/
def execute : (fuel : Nat) → Stmt → Run Flow
  | 0, _ => Run.exhausted
  | fuel + 1, statement =>
    match statement with
    | .expression value => do
      let _ ← evaluate fuel value
      return .normal
    | .declare name initializer => do
      let value ←
        match initializer with
        | some initializer => evaluate fuel initializer
        | none => pure .nil
      Run.define name value
      return .normal
    | .block statements => do Run.block (execute fuel) (← Run.currentScope) statements
    | .branch condition consequent alternative => do
      if (← evaluate fuel condition).isTruthy then execute fuel consequent
      else
        match alternative with
        | some alternative => execute fuel alternative
        | none => return .normal
    | .loop condition body => do
      if (← evaluate fuel condition).isTruthy then
        match ← execute fuel body with
        | .normal => execute fuel (.loop condition body)
        | .returned value => return .returned value
      else return .normal
    | .function name parameters body => do
      let closure ← Run.currentScope
      let callable ← Run.newCallable (.declared { name, parameters, body, closure })
      Run.define name (.callable callable)
      return .normal
    | .ret _ value => do
      match value with
      | some value => return .returned (← evaluate fuel value)
      | none => return .returned .nil
end

/-- Runs the statements of a program in the current scope. A `return` among them ends the run. -/
def interpret (fuel : Nat) (statements : List Stmt) : Run Unit := do
  let _ ← Run.sequence (execute fuel) statements
  return ()

end TinyScript
