import TinyScript.Run.Error
import TinyScript.Value.Basic

/-! Scopes and the heap that holds them. A name means its binding in the nearest scope of the
chain that has one; a scope binds a name at most once by declaration. -/
namespace TinyScript

structure Scope where
  bindings : List (String × Value) := []
  enclosing : Option ScopeId := none

namespace Scope

def find? (scope : Scope) (name : String) : Option Value := scope.bindings.lookup name

def binds (scope : Scope) (name : String) : Bool := (scope.find? name).isSome

/-- Adds a binding for a name that has none. -/
def insert (scope : Scope) (name : String) (value : Value) : Scope :=
  { scope with bindings := (name, value) :: scope.bindings }

/-- Gives a bound name another value. -/
def update (scope : Scope) (name : String) (value : Value) : Scope :=
  { scope with
    bindings := scope.bindings.map fun (key, old) => (key, if key == name then value else old) }

theorem find?_insert (scope : Scope) (name other : String) (value : Value) :
    (scope.insert name value).find? other = if other = name then some value else scope.find? other := by
  by_cases same : other = name
  · simp [insert, find?, same]
  · simp [insert, find?, List.lookup_cons, beq_eq_false_iff_ne.2 same, same]

theorem find?_update (scope : Scope) (name other : String) (value : Value) :
    (scope.update name value).find? other =
      if other = name then (scope.find? other).map fun _ => value else scope.find? other := by
  obtain ⟨bindings, enclosing⟩ := scope
  simp only [update, find?]
  induction bindings with
  | nil => simp
  | cons binding others ih =>
    obtain ⟨key, old⟩ := binding
    by_cases here : other = key
    · subst here
      by_cases same : other = name
      · simp [same]
      · simp [same]
    · simp only [List.map_cons, List.lookup_cons, beq_eq_false_iff_ne.2 here, ih]

end Scope

/-- All scopes made so far, and how many callables have been made. -/
structure Heap where
  scopes : Array Scope := #[]
  callables : Nat := 0

namespace Heap

/-- The heap with one more scope, and that scope's number. -/
@[inline]
def addScope (heap : Heap) (enclosing : Option ScopeId) : ScopeId × Heap :=
  (heap.scopes.size, { heap with scopes := heap.scopes.push { enclosing } })

/-- A callable with an identity of its own. -/
@[inline]
def addCallable (heap : Heap) (routine : Routine) : Callable × Heap :=
  (⟨heap.callables, routine⟩, { heap with callables := heap.callables + 1 })

/-- At most `count` scopes from `start` outwards. -/
def chainFrom (heap : Heap) : Nat → ScopeId → List ScopeId
  | 0, _ => []
  | count + 1, start =>
    match heap.scopes[start]? with
    | none => []
    | some scope =>
      start ::
        match scope.enclosing with
        | some parent => heap.chainFrom count parent
        | none => []

/-- The scope and all that enclose it, inside out. -/
def chain (heap : Heap) (start : ScopeId) : List ScopeId :=
  heap.chainFrom heap.scopes.size start

/-- The value of a name in one scope, the enclosing ones left aside. -/
def local? (heap : Heap) (scope : ScopeId) (name : String) : Option Value :=
  heap.scopes[scope]?.bind (·.find? name)

/-- The nearest scope that binds a name. -/
def binder? (heap : Heap) (start : ScopeId) (name : String) : Option ScopeId :=
  (heap.chain start).find? fun scope => (heap.local? scope name).isSome

/-- The value a name has in a scope. -/
def find? (heap : Heap) (start : ScopeId) (name : String) : Option Value :=
  (heap.binder? start name).bind fun scope => heap.local? scope name

@[inline]
def modify (heap : Heap) (scope : ScopeId) (change : Scope → Scope) : Heap :=
  { heap with scopes := heap.scopes.modify scope change }

/-- The error for a name that nothing binds. -/
def undefinedName (name : Token) : RuntimeError := ⟨.undefinedVariable name.lexeme, name⟩

/-- Reads a name, or says that nothing binds it. -/
def get (heap : Heap) (scope : ScopeId) (name : Token) : Except RuntimeError Value :=
  match heap.find? scope name.lexeme with
  | some value => .ok value
  | none => .error (undefinedName name)

/-- Gives the nearest binding of a name another value. -/
@[inline]
def assign (heap : Heap) (scope : ScopeId) (name : Token) (value : Value) :
    Except RuntimeError Heap :=
  match heap.binder? scope name.lexeme with
  | some binder => .ok (heap.modify binder (·.update name.lexeme value))
  | none => .error (undefinedName name)

/-- Declares a name in a scope. Only a binding of that very scope stands in the way. -/
@[inline]
def define (heap : Heap) (scope : ScopeId) (name : Token) (value : Value) :
    Except RuntimeError Heap :=
  match heap.local? scope name.lexeme with
  | some _ => .error ⟨.alreadyInUse name.lexeme, name⟩
  | none => .ok (heap.modify scope (·.insert name.lexeme value))

section Changes

variable {heap after : Heap} {scope : ScopeId} {name : Token} {value : Value} {error : RuntimeError}

theorem eq_of_assign (assigned : heap.assign scope name value = .ok after) :
    ∃ binder, after = heap.modify binder (·.update name.lexeme value) := by
  unfold assign at assigned
  split at assigned <;> cases assigned
  exact ⟨_, rfl⟩

theorem error_of_assign (failed : heap.assign scope name value = .error error) :
    error = undefinedName name := by
  unfold assign at failed
  split at failed <;> cases failed
  rfl

theorem eq_of_define (declared : heap.define scope name value = .ok after) :
    after = heap.modify scope (·.insert name.lexeme value) := by
  unfold define at declared
  split at declared <;> cases declared
  rfl

theorem error_of_define (failed : heap.define scope name value = .error error) :
    error = ⟨.alreadyInUse name.lexeme, name⟩ := by
  unfold define at failed
  split at failed <;> cases failed
  rfl

end Changes

/-- Binds a name in a scope, in place of any binding it had there. -/
def bind (heap : Heap) (scope : ScopeId) (name : String) (value : Value) : Heap :=
  heap.modify scope fun scope =>
    if scope.binds name then scope.update name value else scope.insert name value

/-- Binds all native functions in a scope. -/
def bindNatives (heap : Heap) (scope : ScopeId) : Heap :=
  Native.all.foldl
    (fun heap builtin =>
      let (callable, heap) := heap.addCallable (.builtIn builtin)
      heap.bind scope builtin.name (.callable callable))
    heap

end Heap

end TinyScript
