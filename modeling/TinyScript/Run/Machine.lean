import TinyScript.Value.Heap

/-! Machines: the state of a running program, and computations on it that give a value, fail with
an error or run out of the steps they were granted. -/
namespace TinyScript

/-- How a computation ends. -/
inductive Outcome (ε α : Type) where
  | done (value : α)
  | failed (error : ε)
  | exhausted
deriving DecidableEq

/-- The `n`-th look at the clock gives `readings n`. -/
structure Clock where
  readings : Nat → Int64
  looks : Nat := 0

structure Machine where
  heap : Heap
  globals : ScopeId
  scope : ScopeId
  depth : Nat := 0
  output : String := ""
  clock : Clock

/-- A machine that has done nothing yet: one scope with the native functions. -/
def Machine.start (readings : Nat → Int64) : Machine :=
  let (globals, heap) := Heap.addScope {} none
  { heap := heap.bindNatives globals, globals, scope := globals, clock := { readings } }

/-- A computation on a machine. -/
def Run (α : Type) : Type := Machine → Outcome RuntimeError α × Machine

namespace Run

variable {α β : Type}

@[inline]
protected def pure (value : α) : Run α := fun machine => (.done value, machine)

@[inline]
protected def bind (first : Run α) (next : α → Run β) : Run β := fun machine =>
  match first machine with
  | (.done value, machine) => next value machine
  | (.failed error, machine) => (.failed error, machine)
  | (.exhausted, machine) => (.exhausted, machine)

@[inline]
instance : Monad Run where
  pure := Run.pure
  bind := Run.bind

@[inline]
def exhausted : Run α := fun machine => (.exhausted, machine)

@[inline]
def fail (cause : RuntimeCause) (token : Token) : Run α := fun machine =>
  (.failed ⟨cause, token⟩, machine)

@[inline]
def ofExcept : Except RuntimeError α → Run α
  | .ok value => Run.pure value
  | .error error => fun machine => (.failed error, machine)

/-- Reads a name in the current scope. -/
@[inline]
def lookup (name : Token) : Run Value := fun machine =>
  match machine.heap.get machine.scope name with
  | .ok value => (.done value, machine)
  | .error error => (.failed error, machine)

/-- Changes the heap, or fails without a change. -/
@[inline]
def onHeap (change : Heap → ScopeId → Except RuntimeError Heap) : Run Unit := fun machine =>
  match change machine.heap machine.scope with
  | .ok heap => (.done (), { machine with heap })
  | .error error => (.failed error, machine)

/-- Gives a name of the current scope or an enclosing one another value. -/
@[inline]
def assign (name : Token) (value : Value) : Run Unit :=
  onHeap fun heap scope => heap.assign scope name value

/-- Declares a name in the current scope. -/
@[inline]
def define (name : Token) (value : Value) : Run Unit :=
  onHeap fun heap scope => heap.define scope name value

/-- Declares a name in the given scope. -/
@[inline]
def defineIn (scope : ScopeId) (name : Token) (value : Value) : Run Unit :=
  onHeap fun heap _ => heap.define scope name value

/-- The number of the current scope. -/
@[inline]
def currentScope : Run ScopeId := fun machine => (.done machine.scope, machine)

/-- A new scope inside `enclosing`. -/
@[inline]
def newScope (enclosing : ScopeId) : Run ScopeId := fun machine =>
  let (scope, heap) := machine.heap.addScope (some enclosing)
  (.done scope, { machine with heap })

/-- A new callable for the routine. -/
@[inline]
def newCallable (routine : Routine) : Run Callable := fun machine =>
  let (callable, heap) := machine.heap.addCallable routine
  (.done callable, { machine with heap })

@[inline]
def emit (text : String) : Run Unit := fun machine =>
  (.done (), { machine with output := machine.output ++ text })

/-- A look at the clock. -/
@[inline]
def readClock : Run Int64 := fun machine =>
  (.done (machine.clock.readings machine.clock.looks),
    { machine with clock := { machine.clock with looks := machine.clock.looks + 1 } })

/-- Runs `body` in another scope and comes back to the current one, however `body` ends. -/
@[inline]
def inScope (scope : ScopeId) (body : Run α) : Run α := fun machine =>
  let previous := machine.scope
  let (outcome, machine) := body { machine with scope }
  (outcome, { machine with scope := previous })

/-- Runs `body` one call deeper, or fails at `paren` if calls nest too deep already. -/
@[inline]
def nested (paren : Token) (body : Run α) : Run α := fun machine =>
  if depthLimit ≤ machine.depth then (.failed ⟨.stackOverflow, paren⟩, machine)
  else
    let (outcome, machine) := body { machine with depth := machine.depth + 1 }
    (outcome, { machine with depth := machine.depth - 1 })

/-- The values of all elements, computed from left to right. -/
def collect (compute : α → Run β) : List α → Run (List β)
  | [] => pure []
  | first :: others => do
    let value ← compute first
    let values ← collect compute others
    return value :: values

end Run

end TinyScript
