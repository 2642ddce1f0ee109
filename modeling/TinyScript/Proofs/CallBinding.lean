import Mathlib.Data.List.Induction
import TinyScript.Proofs.CallDepth
import TinyScript.Proofs.LeavingReturn

/-! Calls of functions that programs declare. A call makes one scope, inside the one its function closes
over, and declares the parameters there one after another; then it runs the body in it. If the names of
the parameters are distinct, the scope binds them to the arguments and nothing else, and the value of the
call is that of the return by which the body is left. If not, the call fails at the first name that comes
again, and nothing of the body is run. -/
namespace TinyScript

/-- The scope with names added to it, one after another. -/
def Scope.insertAll (scope : Scope) (bindings : List (Token × Value)) : Scope :=
  bindings.foldl (fun scope binding => scope.insert binding.1.lexeme binding.2) scope

namespace Scope

variable {scope : Scope}

theorem insertAll_enclosing (bindings : List (Token × Value)) :
    (scope.insertAll bindings).enclosing = scope.enclosing := by
  induction bindings generalizing scope with
  | nil => rfl
  | cons binding others ih => exact ih

/-- Names that are not among those added mean what they meant. -/
theorem find?_insertAll_of_notMem {bindings : List (Token × Value)} {name : String}
    (other : name ∉ bindings.map (·.1.lexeme)) :
    (scope.insertAll bindings).find? name = scope.find? name := by
  induction bindings generalizing scope with
  | nil => rfl
  | cons binding others ih =>
    simp only [List.map_cons, List.mem_cons, not_or] at other
    obtain ⟨different, further⟩ := other
    show ((scope.insert binding.1.lexeme binding.2).insertAll others).find? name = _
    rw [ih further, find?_insert, if_neg different]

/-- Names that were added and come only once mean what they were added with. -/
theorem find?_insertAll_of_mem {bindings : List (Token × Value)}
    (distinct : (bindings.map (·.1.lexeme)).Nodup) {binding : Token × Value}
    (member : binding ∈ bindings) :
    (scope.insertAll bindings).find? binding.1.lexeme = some binding.2 := by
  induction bindings generalizing scope with
  | nil => cases member
  | cons first others ih =>
    obtain ⟨once, later⟩ := List.nodup_cons.1 distinct
    show ((scope.insert first.1.lexeme first.2).insertAll others).find? _ = _
    rcases List.mem_cons.1 member with rfl | further
    · rw [find?_insertAll_of_notMem once, find?_insert, if_pos rfl]
    · exact ih later further

/-- A name that comes once takes nothing from those that come after it. -/
theorem unbound_insert {first : Token × Value} {others : List (Token × Value)}
    (once : first.1.lexeme ∉ others.map (·.1.lexeme))
    (unbound : ∀ binding ∈ others, scope.find? binding.1.lexeme = none) :
    ∀ binding ∈ others, (scope.insert first.1.lexeme first.2).find? binding.1.lexeme = none := by
  intro binding member
  have different : binding.1.lexeme ≠ first.1.lexeme := fun same =>
    once (List.mem_map.2 ⟨binding, member, same⟩)
  rw [find?_insert, if_neg different, unbound binding member]

end Scope

namespace Run

variable (machine : Machine) (scope : Scope)

/-- A name is declared in the last scope unless it is there. -/
theorem defineIn_holding (name : Token) (value : Value) :
    defineIn machine.heap.scopes.size name value (machine.holding scope) =
      match scope.find? name.lexeme with
      | some _ => (.failed ⟨.alreadyInUse name.lexeme, name⟩, machine.holding scope)
      | none => (.done (), machine.holding (scope.insert name.lexeme value)) := by
  have here : (machine.holding scope).heap.local? machine.heap.scopes.size name.lexeme =
      scope.find? name.lexeme := by
    simp [Heap.local?, Machine.holding]
  have changed : (machine.holding scope).heap.modify machine.heap.scopes.size
      (·.insert name.lexeme value) =
        (machine.holding (scope.insert name.lexeme value)).heap := by
    have scopes : (machine.heap.scopes.push scope).modify machine.heap.scopes.size
        (·.insert name.lexeme value) = machine.heap.scopes.push (scope.insert name.lexeme value) := by
      ext id : 1
      · simp
      · grind
    simp only [Heap.modify, Machine.holding, scopes]
  simp only [defineIn, onHeap, Heap.define, here]
  cases scope.find? name.lexeme with
  | some _ => rfl
  | none => simp only [changed]; rfl

variable {machine scope}

theorem bindParameters_cons {first : Token × Value} {others : List (Token × Value)}
    (free : scope.find? first.1.lexeme = none) :
    bindParameters machine.heap.scopes.size (first :: others) (machine.holding scope) =
      bindParameters machine.heap.scopes.size others
        (machine.holding (scope.insert first.1.lexeme first.2)) := by
  have declared := defineIn_holding machine scope first.1 first.2
  rw [free] at declared
  show Run.bind (defineIn _ first.1 first.2) (fun _ => bindParameters _ others) _ = _
  simp only [Run.bind, declared]

/-- Parameters with distinct names are all declared. -/
theorem bindParameters_of_nodup {bindings : List (Token × Value)}
    (distinct : (bindings.map (·.1.lexeme)).Nodup)
    (unbound : ∀ binding ∈ bindings, scope.find? binding.1.lexeme = none) :
    bindParameters machine.heap.scopes.size bindings (machine.holding scope) =
      (.done (), machine.holding (scope.insertAll bindings)) := by
  induction bindings generalizing scope with
  | nil => rfl
  | cons first others ih =>
    obtain ⟨once, later⟩ := List.nodup_cons.1 distinct
    obtain ⟨free, othersFree⟩ := List.forall_mem_cons.1 unbound
    rw [bindParameters_cons free, ih later (Scope.unbound_insert once othersFree)]
    rfl

/-- The first name that comes again stops the declarations, and those in front of it have been made. -/
theorem bindParameters_of_again {before after : List (Token × Value)} {parameter : Token}
    {argument : Value} (distinct : (before.map (·.1.lexeme)).Nodup)
    (unbound : ∀ binding ∈ before, scope.find? binding.1.lexeme = none)
    (again : parameter.lexeme ∈ before.map (·.1.lexeme) ∨ (scope.find? parameter.lexeme).isSome) :
    bindParameters machine.heap.scopes.size (before ++ (parameter, argument) :: after)
        (machine.holding scope) =
      (.failed ⟨.alreadyInUse parameter.lexeme, parameter⟩,
        machine.holding (scope.insertAll before)) := by
  induction before generalizing scope with
  | nil =>
    obtain ⟨old, taken⟩ := Option.isSome_iff_exists.1 (again.resolve_left List.not_mem_nil)
    have refused := defineIn_holding machine scope parameter argument
    rw [taken] at refused
    show Run.bind (defineIn _ parameter argument) (fun _ => bindParameters _ after) _ = _
    simp only [Run.bind, refused]
    rfl
  | cons first others ih =>
    obtain ⟨once, later⟩ := List.nodup_cons.1 distinct
    obtain ⟨free, othersFree⟩ := List.forall_mem_cons.1 unbound
    have stillAgain : parameter.lexeme ∈ others.map (·.1.lexeme) ∨
        ((scope.insert first.1.lexeme first.2).find? parameter.lexeme).isSome := by
      rw [Scope.find?_insert]
      by_cases same : parameter.lexeme = first.1.lexeme
      · exact .inr (by simp [same])
      · simpa [same] using again
    rw [List.cons_append, bindParameters_cons free,
      ih later (Scope.unbound_insert once othersFree) stillAgain]
    rfl

end Run

/-- The names of parameters that come with their arguments. -/
theorem names_zip {parameters : List Token} {arguments : List Value}
    (fits : arguments.length = parameters.length) :
    (parameters.zip arguments).map (·.1.lexeme) = parameters.map Token.lexeme := by
  calc (parameters.zip arguments).map (·.1.lexeme)
      = ((parameters.zip arguments).map Prod.fst).map Token.lexeme := by
        rw [List.map_map]
        rfl
    _ = parameters.map Token.lexeme := by rw [List.map_fst_zip (Nat.le_of_eq fits.symm)]

/-- What a call gives for the way its body ends. -/
def Flow.answer : Flow → Value
  | .normal => .nil
  | .returned value => value

/-- The outcome with its value changed. -/
def Outcome.map {ε α β : Type} (change : α → β) : Outcome ε α → Outcome ε β
  | .done value => .done (change value)
  | .failed error => .failed error
  | .exhausted => .exhausted

/-- A call gives the value its body is left with, or `nil` if the body goes through. -/
theorem Outcome.map_answer_eq_done_iff {body : Outcome RuntimeError Flow} {value : Value} :
    body.map Flow.answer = .done value ↔
      body = .done (.returned value) ∨ (body = .done .normal ∧ value = .nil) := by
  cases body with
  | done flow => cases flow <;> simp [Outcome.map, Flow.answer, eq_comm]
  | failed error => simp [Outcome.map]
  | exhausted => simp [Outcome.map]

namespace Function

/-- The scope of a call: inside the one that the function closes over, with its parameters. -/
def scope (function : Function) (arguments : List Value) : Scope :=
  Scope.insertAll { enclosing := some function.closure } (function.parameters.zip arguments)

/-- The machine on which a call made below the depth limit starts the body. -/
def entry (function : Function) (arguments : List Value) (machine : Machine) : Machine :=
  { machine.entering (function.scope arguments) with depth := machine.depth + 1 }

variable {function : Function} {arguments : List Value}

/-- The scope of a call binds the parameters to the arguments, position by position, and nothing else. -/
theorem find?_scope (fits : arguments.length = function.parameters.length)
    (distinct : (function.parameters.map Token.lexeme).Nodup) {name : String} {value : Value} :
    (function.scope arguments).find? name = some value ↔
      ∃ (position : Nat) (parameter : Token), function.parameters[position]? = some parameter ∧
        parameter.lexeme = name ∧ arguments[position]? = some value := by
  have names := names_zip fits
  constructor
  · intro found
    by_cases known : name ∈ (function.parameters.zip arguments).map (·.1.lexeme)
    · obtain ⟨⟨parameter, argument⟩, member, rfl⟩ := List.mem_map.1 known
      rw [scope, Scope.find?_insertAll_of_mem (names ▸ distinct) member] at found
      cases found
      obtain ⟨position, placed⟩ := List.mem_iff_getElem?.1 member
      obtain ⟨first, second⟩ := List.getElem?_zip_eq_some.1 placed
      exact ⟨position, parameter, first, rfl, second⟩
    · rw [scope, Scope.find?_insertAll_of_notMem known] at found
      cases found
  · rintro ⟨position, parameter, first, rfl, second⟩
    have placed : (function.parameters.zip arguments)[position]? = some (parameter, value) :=
      List.getElem?_zip_eq_some.2 ⟨first, second⟩
    exact Scope.find?_insertAll_of_mem (names ▸ distinct) (List.mem_of_getElem? placed)

end Function

/-- Names that are not distinct have a first one that comes again. -/
theorem exists_first_again {parameters : List Token}
    (repeated : ¬ (parameters.map Token.lexeme).Nodup) :
    ∃ before parameter after, parameters = before ++ parameter :: after ∧
      (before.map Token.lexeme).Nodup ∧ parameter.lexeme ∈ before.map Token.lexeme := by
  induction parameters using List.reverseRecOn with
  | nil => exact absurd List.nodup_nil repeated
  | append_singleton before parameter ih =>
    by_cases distinct : (before.map Token.lexeme).Nodup
    · refine ⟨before, parameter, [], rfl, distinct, ?_⟩
      simpa [List.nodup_append, distinct] using repeated
    · obtain ⟨front, first, back, rfl, shape⟩ := ih distinct
      exact ⟨front, first, back ++ [parameter], by simp, shape⟩

section Calls

variable {function : Function} {arguments : List Value}
variable (fits : arguments.length = function.parameters.length)
include fits

/-- With distinct names, a called function runs its body in the scope of the call. -/
theorem callFunction_of_nodup (run : Stmt → Run Flow) (machine : Machine)
    (distinct : (function.parameters.map Token.lexeme).Nodup) :
    Run.callFunction run function arguments machine =
      let body := Run.sequence run function.body (machine.entering (function.scope arguments))
      (body.1.map Flow.answer, { body.2 with scope := machine.scope }) := by
  have bound : Run.bindParameters machine.heap.scopes.size (function.parameters.zip arguments)
      (machine.holding { enclosing := some function.closure }) =
        (.done (), machine.holding (function.scope arguments)) :=
    Run.bindParameters_of_nodup ((names_zip fits).symm ▸ distinct) fun _ _ => rfl
  show Run.bind (Run.bindParameters machine.heap.scopes.size (function.parameters.zip arguments))
    _ (machine.holding { enclosing := some function.closure }) = _
  simp only [Run.bind, bound]
  show Run.bind (Run.inScope machine.heap.scopes.size (Run.sequence run function.body)) _ _ = _
  have inside : Run.inScope machine.heap.scopes.size (Run.sequence run function.body)
      (machine.holding (function.scope arguments)) =
        let body := Run.sequence run function.body (machine.entering (function.scope arguments))
        (body.1, { body.2 with scope := machine.scope }) := rfl
  simp only [Run.bind, inside]
  cases (Run.sequence run function.body (machine.entering (function.scope arguments))).1 with
  | done flow => cases flow <;> rfl
  | failed error => rfl
  | exhausted => rfl

/-- With a name that comes again, a called function fails there, whatever runs the body; all that is
left of the call is its scope. -/
theorem callFunction_of_again (machine : Machine) {before after : List Token} {parameter : Token}
    (shape : function.parameters = before ++ parameter :: after)
    (distinct : (before.map Token.lexeme).Nodup)
    (again : parameter.lexeme ∈ before.map Token.lexeme) :
    ∃ scope, ∀ run : Stmt → Run Flow, Run.callFunction run function arguments machine =
      (.failed ⟨.alreadyInUse parameter.lexeme, parameter⟩, machine.holding scope) := by
  obtain ⟨front, rest, rfl, sameLength⟩ : ∃ front rest, arguments = front ++ rest ∧
      front.length = before.length := by
    refine ⟨arguments.take before.length, arguments.drop before.length,
      (List.take_append_drop _ _).symm, ?_⟩
    rw [List.length_take, fits, shape, List.length_append]
    omega
  cases rest with
  | nil =>
    simp only [shape, List.length_append, List.length_cons, List.length_nil] at fits
    omega
  | cons argument others =>
    have names := names_zip sameLength
    have refused : Run.bindParameters machine.heap.scopes.size
        (before.zip front ++ (parameter, argument) :: after.zip others)
        (machine.holding { enclosing := some function.closure }) =
          (.failed ⟨.alreadyInUse parameter.lexeme, parameter⟩, machine.holding
            (Scope.insertAll { enclosing := some function.closure } (before.zip front))) :=
      Run.bindParameters_of_again (names ▸ distinct) (fun _ _ => rfl) (.inl (names ▸ again))
    refine ⟨Scope.insertAll { enclosing := some function.closure } (before.zip front),
      fun run => ?_⟩
    show Run.bind (Run.bindParameters machine.heap.scopes.size
        (function.parameters.zip (front ++ argument :: others)))
      _ (machine.holding { enclosing := some function.closure }) = _
    rw [shape, List.zip_append sameLength.symm, List.zip_cons_cons]
    simp only [Run.bind, refused]

/-- What a call below the depth limit does if the names of the parameters are distinct. -/
theorem call_of_nodup (fuel identity : Nat) (paren : Token) {machine : Machine}
    (below : machine.depth < depthLimit)
    (distinct : (function.parameters.map Token.lexeme).Nodup) :
    Run.call (execute fuel) (.callable ⟨identity, .declared function⟩) arguments paren machine =
      let body := Run.sequence (execute fuel) function.body (function.entry arguments machine)
      (body.1.map Flow.answer,
        { body.2 with scope := machine.scope, depth := machine.depth }) := by
  have accepted : (Routine.declared function).arity.Fits arguments.length := fits
  have ran := callFunction_of_nodup fits (execute fuel)
    { machine with depth := machine.depth + 1 } distinct
  rw [call_below_limit accepted paren machine below]
  simp only [Run.routine, ran]
  rfl

/-- What it does if a name comes again. -/
theorem call_of_again (identity : Nat) (paren : Token) {machine : Machine}
    (below : machine.depth < depthLimit) {before after : List Token} {parameter : Token}
    (shape : function.parameters = before ++ parameter :: after)
    (distinct : (before.map Token.lexeme).Nodup)
    (again : parameter.lexeme ∈ before.map Token.lexeme) :
    ∃ scope, ∀ run : Stmt → Run Flow,
      Run.call run (.callable ⟨identity, .declared function⟩) arguments paren machine =
        (.failed ⟨.alreadyInUse parameter.lexeme, parameter⟩, machine.holding scope) := by
  have accepted : (Routine.declared function).arity.Fits arguments.length := fits
  obtain ⟨scope, refused⟩ := callFunction_of_again fits { machine with depth := machine.depth + 1 }
    shape distinct again
  refine ⟨scope, fun run => ?_⟩
  rw [Run.call_of_fits run accepted paren]
  simp only [Run.nested, Nat.not_le.mpr below, if_false, Run.routine, refused]
  rfl

end Calls

/-- A function called below the depth limit, with as many arguments as it has parameters: if the names
of the parameters are distinct, its body is run in a new scope inside the one the function closes over,
which binds the parameters to the arguments and nothing else, and the call gives what the return gives
by which the body is left, or `nil` if the body goes through; if a name comes again, the call fails at the
first parameter whose name does, whatever runs the body, and has only made a scope. -/
theorem calls_bind_parameters (function : Function) (arguments : List Value) (machine : Machine)
    (below : machine.depth < depthLimit) (fits : arguments.length = function.parameters.length)
    (identity : Nat) (paren : Token) :
    ((function.parameters.map Token.lexeme).Nodup →
      (function.scope arguments).enclosing = some function.closure ∧
      (∀ name value, (function.scope arguments).find? name = some value ↔
        ∃ (position : Nat) (parameter : Token), function.parameters[position]? = some parameter ∧
          parameter.lexeme = name ∧ arguments[position]? = some value) ∧
      function.entry arguments machine =
        { machine with
          heap := { machine.heap with
            scopes := machine.heap.scopes.push (function.scope arguments) }
          scope := machine.heap.scopes.size
          depth := machine.depth + 1 } ∧
      ∀ fuel : Nat,
        let body := Run.sequence (execute fuel) function.body (function.entry arguments machine)
        let called := Run.call (execute fuel) (.callable ⟨identity, .declared function⟩) arguments
          paren machine
        called =
          (body.1.map Flow.answer,
            { body.2 with scope := machine.scope, depth := machine.depth }) ∧
        ∀ value, called.1 = .done value ↔
          (∃ exit, Stmt.RowComesTo fuel function.body (function.entry arguments machine) exit ∧
            exit.outcome = .done value) ∨
          (body.1 = .done .normal ∧ value = .nil)) ∧
    (¬ (function.parameters.map Token.lexeme).Nodup →
      ∃ before parameter after, function.parameters = before ++ parameter :: after ∧
        (before.map Token.lexeme).Nodup ∧ parameter.lexeme ∈ before.map Token.lexeme ∧
        ∃ scope, ∀ run : Stmt → Run Flow,
          Run.call run (.callable ⟨identity, .declared function⟩) arguments paren machine =
            (.failed ⟨.alreadyInUse parameter.lexeme, parameter⟩,
              { machine with
                heap := { machine.heap with scopes := machine.heap.scopes.push scope } })) := by
  constructor
  · intro distinct
    refine ⟨Scope.insertAll_enclosing _, fun name value => Function.find?_scope fits distinct, rfl,
      fun fuel => ?_⟩
    have ran := call_of_nodup fits fuel identity paren below distinct
    refine ⟨ran, fun value => ?_⟩
    rw [ran, ← row_returned_iff (execute_returned_iff fuel)]
    exact Outcome.map_answer_eq_done_iff
  · intro repeated
    obtain ⟨before, parameter, after, shape, distinct, again⟩ := exists_first_again repeated
    exact ⟨before, parameter, after, shape, distinct, again,
      call_of_again fits identity paren below shape distinct again⟩

private def formal (lexeme : String) : Token :=
  { kind := .identifier, lexeme, line := 1, span := ⟨0, 1⟩ }

private def closing : Token := { kind := .rightParen, lexeme := ")", line := 1, span := ⟨8, 9⟩ }

/-- A function of two parameters that returns the second from inside a loop. -/
private def choosing : Function where
  name := formal "choose"
  parameters := [formal "a", formal "b"]
  body := [.loop (.literal (.bool true)) (.block [.ret (formal "return") (some (.var (formal "b")))])]
  closure := 0

private def clashing : Function :=
  { choosing with parameters := [formal "a", formal "b", formal "a"] }

/-- The first function gives its second argument, and a return comes to it; the second is refused at its
third parameter. -/
theorem choosing_bound_clashing_refused :
    let machine := Machine.start fun _ => 0
    machine.depth < depthLimit ∧
    (∃ exit, Stmt.RowComesTo 5 choosing.body (choosing.entry [.int 1, .int 2] machine) exit ∧
      exit.outcome = .done (.int 2)) ∧
    ∃ scope, ∀ run : Stmt → Run Flow,
      Run.call run (.callable ⟨4, .declared clashing⟩) [.nil, .nil, .nil] closing machine =
        (.failed ⟨.alreadyInUse "a", formal "a"⟩, machine.holding scope) := by
  have below : (Machine.start fun _ => 0).depth < depthLimit := by decide
  obtain ⟨chosen, _⟩ := calls_bind_parameters choosing [.int 1, .int 2] (Machine.start fun _ => 0)
    below rfl 4 closing
  obtain ⟨_, clashed⟩ := calls_bind_parameters clashing [.nil, .nil, .nil]
    (Machine.start fun _ => 0) below rfl 4 closing
  refine ⟨below, ?_, ?_⟩
  · obtain ⟨_, _, _, calls⟩ := chosen (by decide)
    rcases ((calls 5).2 (.int 2)).1 rfl with comes | ⟨_, wrong⟩
    · exact comes
    · cases wrong
  · obtain ⟨before, parameter, after, shape, distinct, again, scope, refused⟩ := clashed (by decide)
    -- The first name that comes again is neither the first nor the second.
    obtain _ | ⟨first, _ | ⟨second, _ | ⟨third, others⟩⟩⟩ := before
    · cases again
    · cases shape
      exact absurd again (by decide)
    · cases shape
      exact ⟨scope, refused⟩
    · simp [clashing] at shape

end TinyScript
