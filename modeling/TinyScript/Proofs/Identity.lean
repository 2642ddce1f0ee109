import TinyScript.Proofs.CallBinding
import TinyScript.Proofs.Grounded
import TinyScript.Proofs.Register

/-! Identities of functions. Whatever tasks a host gives to a machine, one register lists all functions
that are ever stored on the way, so two of them are equal only if they are one; a function that has just
been declared is in no scope yet, and all ways of passing it on leave it as it is. -/
namespace TinyScript

namespace Value

/-- Values are the same if they are equal, or functions of the same identity. -/
theorem same_iff {left right : Value} :
    left.same right = true ↔ left = right ∨ ∃ first second, left = callable first ∧
      right = callable second ∧ first.identity = second.identity := by
  cases left <;> cases right <;> simp [same]
  rintro rfl
  rfl

theorem same_refl (value : Value) : value.same value = true := same_iff.2 (.inl rfl)

theorem same_equivalence : Equivalence fun left right : Value => left.same right = true where
  refl := same_refl
  symm {left right} same := by
    rcases same_iff.1 same with rfl | ⟨first, second, rfl, rfl, identity⟩
    · exact same
    · exact same_iff.2 (.inr ⟨second, first, rfl, rfl, identity.symm⟩)
  trans {left middle right} same further := by
    rcases same_iff.1 same with rfl | ⟨first, second, rfl, rfl, identity⟩
    · exact further
    rcases same_iff.1 further with rfl | ⟨_, third, ⟨⟩, rfl, other⟩
    · exact same
    · exact same_iff.2 (.inr ⟨first, third, rfl, rfl, identity.trans other⟩)

/-- Functions of the same identity that one register lists are one function. -/
theorem ListedIn.same_iff_eq {register : List Routine} {left right : Value}
    (first : left.ListedIn register) (second : right.ListedIn register) :
    left.same right = true ↔ left = right := by
  refine ⟨fun same => ?_, fun equal => equal ▸ same_refl left⟩
  rcases same_iff.1 same with equal | ⟨⟨_, routine⟩, ⟨_, other⟩, rfl, rfl, rfl⟩
  · exact equal
  · obtain rfl : routine = other := Option.some.inj (first.symm.trans second)
    rfl

end Value

namespace Task

/-- The machines that are passed through with tasks one after another, each with its own fuel. -/
def journey : (tasks : List (Nat × Task)) → Machine → List Machine
  | [], machine => [machine]
  | (fuel, task) :: others, machine =>
    machine :: (task.traced fuel).history machine ++ journey others (task.run fuel machine).2

theorem lists (task : Task) (fuel : Nat) (register : List Routine) :
    (task.traced fuel).Lists anything register := by
  obtain ⟨values, flows⟩ := Conduct.register.evaluation fuel
  have anywhere (statement : Stmt) : Conduct.register.Allows register statement := .inr trivial
  cases task with
  | evaluate expression => exact (values expression trivial register).forget
  | execute statement => exact (flows statement trivial register (anywhere statement)).forget
  | interpret statements =>
    exact Conduct.register.interpret fuel (fun _ _ => trivial) register trivial
  | executeIn scope statements =>
    exact (Conduct.sequence_inScope flows trivial fun _ _ => trivial).forget
  | executeBlock enclosing statements =>
    exact (Conduct.block flows trivial fun _ _ => trivial).forget

/-- All machines on the way begin with the first. -/
theorem journey_head (tasks : List (Nat × Task)) (machine : Machine) :
    ∃ others, journey tasks machine = machine :: others := by
  cases tasks with
  | nil => exact ⟨[], rfl⟩
  | cons task others => exact ⟨_, rfl⟩

/-- One register lists all heaps on the way, each as far as it had been written then. -/
theorem journey_listed (tasks : List (Nat × Task)) {register : List Routine} {machine : Machine}
    (fits : machine.heap.ListedIn register) :
    ∃ final, register <+: final ∧
      (∀ passed ∈ journey tasks machine,
        passed.heap.ListedIn (final.take passed.heap.callables)) ∧
      (journey tasks machine).Pairwise Machine.Precedes := by
  induction tasks generalizing register machine with
  | nil =>
    exact ⟨register, List.prefix_rfl, List.forall_mem_singleton.2 fits.take,
      List.pairwise_singleton _ _⟩
  | cons task others ih =>
    obtain ⟨fuel, task⟩ := task
    have same : (task.traced fuel machine).ending = task.run fuel machine :=
      congrFun (task.holds_of_compositional Traced.compositional_result fuel) machine
    obtain ⟨between, front, heap, _, passed, ordered⟩ :=
      task.lists fuel register machine fits
    rw [same] at heap
    obtain ⟨final, further, later, orderedLater⟩ := ih heap
    have first : ∀ earlier ∈ machine :: (task.traced fuel).history machine,
        earlier.heap.ListedIn (between.take earlier.heap.callables) :=
      List.forall_mem_cons.2 ⟨fits.take.mono_take front, passed⟩
    refine ⟨final, front.trans further, List.forall_mem_append.2 ⟨?_, later⟩,
      List.pairwise_append.2 ⟨ordered, orderedLater, ?_⟩⟩
    · intro earlier among
      exact (first earlier among).mono_take further
    · intro earlier among other member
      have reached : earlier.Precedes (task.run fuel machine).2 := by
        rw [Machine.Precedes, heap.counted]
        exact (first earlier among).callables_le
      obtain ⟨behind, shape⟩ := journey_head others (task.run fuel machine).2
      rw [shape] at member orderedLater
      rcases List.mem_cons.1 member with rfl | member
      · exact reached
      · exact Nat.le_trans reached ((List.pairwise_cons.1 orderedLater).1 other member)

/-- With the tasks of a host, all machines on the way are reachable. -/
theorem journey_reachable {readings : Nat → Int64} {tasks : List (Nat × Task)} {machine : Machine}
    (resting : machine.Resting readings) (bound : machine.depth ≤ depthLimit)
    (hosted : ∀ task ∈ tasks, task.2.Hosted machine.globals) :
    ∀ passed ∈ journey tasks machine, passed.Reachable readings := by
  induction tasks generalizing machine with
  | nil => exact List.forall_mem_singleton.2 (.resting resting)
  | cons task others ih =>
    obtain ⟨fuel, task⟩ := task
    obtain ⟨first, later⟩ := List.forall_mem_cons.1 hosted
    have restored := task.restored fuel machine bound
    have onwards := ih (.served fuel resting first) (restored.depth_le bound)
      (restored.globals.symm ▸ later)
    refine List.forall_mem_append.2 ⟨List.forall_mem_cons.2 ⟨.resting resting, ?_⟩, onwards⟩
    intro between among
    exact .passed fuel resting first among

end Task

/-- At the start, the native functions are listed in the order they were made. -/
theorem Machine.start_listed (readings : Nat → Int64) :
    (Machine.start readings).heap.ListedIn (Native.all.map .builtIn) := by
  have bindings : (Machine.start readings).heap.scopes.toList.map Scope.bindings =
      [[("inHex", .callable ⟨3, .builtIn .inHex⟩), ("println", .callable ⟨2, .builtIn .println⟩),
        ("print", .callable ⟨1, .builtIn .print⟩), ("clock", .callable ⟨0, .builtIn .clock⟩)]] := rfl
  refine ⟨rfl, fun id scope stored binding member => ?_⟩
  have among : scope.bindings ∈ (Machine.start readings).heap.scopes.toList.map Scope.bindings :=
    List.mem_map.2 ⟨scope, Array.mem_toList_iff.2 (Array.mem_of_getElem? stored), rfl⟩
  rw [bindings, List.mem_singleton] at among
  rw [among] at member
  simp only [List.mem_cons, List.not_mem_nil, or_false] at member
  rcases member with rfl | rfl | rfl | rfl <;> rfl

namespace Heap

variable {heap : Heap}

/-- A name that a scope binds itself means that binding there. -/
theorem find?_of_local? {scope : ScopeId} {name : String} {value : Value}
    (bound : heap.local? scope name = some value) : heap.find? scope name = some value := by
  obtain ⟨stored, found, _⟩ := Option.bind_eq_some_iff.1 bound
  obtain ⟨count, size⟩ := Nat.exists_eq_succ_of_ne_zero
    (Nat.ne_zero_of_lt (Array.getElem?_eq_some_iff.1 found).1)
  have nearest : heap.binder? scope name = some scope := by
    rw [binder?, chain, size, chainFrom, found]
    simp [bound]
  rw [find?, nearest]
  exact bound

/-- Giving a name another value changes no way outwards. -/
theorem chainFrom_update (target : ScopeId) (name : String) (value : Value) (count : Nat)
    (start : ScopeId) :
    (heap.modify target (·.update name value)).chainFrom count start = heap.chainFrom count start := by
  induction count generalizing start with
  | zero => rfl
  | succ count ih =>
    have stored : (heap.modify target (·.update name value)).scopes[start]? =
        if target = start then heap.scopes[start]?.map (·.update name value)
        else heap.scopes[start]? := by
      rw [modify, Array.getElem?_modify]
    rw [chainFrom, chainFrom, stored]
    cases heap.scopes[start]? with
    | none => simp
    | some scope =>
      by_cases here : target = start
      · simp only [if_pos here, Option.map_some, ih]
        rfl
      · simp only [if_neg here, ih]

theorem local?_update (target : ScopeId) (name : String) (value : Value) (scope : ScopeId)
    (other : String) :
    (heap.modify target (·.update name value)).local? scope other =
      if target = scope ∧ other = name then (heap.local? scope other).map fun _ => value
      else heap.local? scope other := by
  simp only [local?, modify, Array.getElem?_modify]
  by_cases here : target = scope
  · simp only [here, if_true, true_and]
    cases heap.scopes[scope]? with
    | none => simp
    | some stored => simp [Scope.find?_update]
  · simp [here]

/-- An assigned name means the value it was given. -/
theorem find?_of_assign {after : Heap} {scope : ScopeId} {name : Token} {value : Value}
    (assigned : heap.assign scope name value = .ok after) :
    after.find? scope name.lexeme = some value := by
  unfold assign at assigned
  split at assigned
  · next binder found =>
    cases assigned
    have bound : (heap.local? binder name.lexeme).isSome := by
      simpa using List.find?_some found
    have nearest : (heap.modify binder (·.update name.lexeme value)).binder? scope name.lexeme =
        some binder := by
      rw [← found, binder?, binder?, chain, chain, chainFrom_update]
      have size : (heap.modify binder (·.update name.lexeme value)).scopes.size =
          heap.scopes.size := by simp [modify]
      rw [size]
      congr 1
      funext other
      rw [local?_update]
      split <;> simp
    rw [find?, nearest, Option.bind_some, local?_update, if_pos ⟨rfl, rfl⟩]
    obtain ⟨old, found⟩ := Option.isSome_iff_exists.1 bound
    rw [found, Option.map_some]
  · cases assigned

/-- A declared name means the value it was declared with. -/
theorem local?_of_define {after : Heap} {scope : ScopeId} {name : Token} {value : Value}
    (present : scope < heap.scopes.size) (declared : heap.define scope name value = .ok after) :
    after.local? scope name.lexeme = some value := by
  unfold define at declared
  split at declared
  · cases declared
  · cases declared
    simp only [local?, modify, Array.getElem?_modify, if_true, Array.getElem?_eq_getElem present,
      Option.map_some, Option.bind_some, Scope.find?_insert]

end Heap

/-- Executing a declaration makes one callable and binds it in the current scope. -/
theorem execute_function {fuel : Nat} {name : Token} {parameters : List Token} {body : List Stmt}
    {before after : Machine} (present : before.scope < before.heap.scopes.size)
    (ran : execute (fuel + 1) (.function name parameters body) before = (.done .normal, after)) :
    after.heap.local? before.scope name.lexeme = some (.callable
      ⟨before.heap.callables, .declared { name, parameters, body, closure := before.scope }⟩) := by
  let function : Function := { name, parameters, body, closure := before.scope }
  let made := before.heap.addCallable (.declared function)
  have unfolded : execute (fuel + 1) (.function name parameters body) before =
      Run.bind (Run.define name (.callable made.1)) (fun _ => Run.pure Flow.normal)
        { before with heap := made.2 } := rfl
  rw [unfolded] at ran
  have declared : made.2.define before.scope name (.callable made.1) = .ok after.heap := by
    simp only [Run.bind, Run.define, Run.onHeap] at ran
    cases changed : made.2.define before.scope name (.callable made.1) with
    | ok heap =>
      rw [changed] at ran
      cases ran
      rfl
    | error error =>
      rw [changed] at ran
      cases ran
  have there : before.scope < made.2.scopes.size := present
  exact Heap.local?_of_define there declared

theorem evaluate_var {name : Token} {machine : Machine} {value : Value}
    (found : machine.heap.find? machine.scope name.lexeme = some value) (fuel : Nat) :
    evaluate (fuel + 1) (.var name) machine = (.done value, machine) := by
  show Run.lookup name machine = _
  simp only [Run.lookup, Heap.get, found]

theorem evaluate_assign {fuel : Nat} {name : Token} {expression : Expr}
    {machine between after : Machine} {value result : Value}
    (given : evaluate fuel expression machine = (.done value, between))
    (ran : evaluate (fuel + 1) (.assign name expression) machine = (.done result, after)) :
    result = value ∧ after.heap.find? after.scope name.lexeme = some value := by
  change Run.bind (evaluate fuel expression) (fun value =>
    Run.bind (Run.assign name value) fun _ => Run.pure value) machine = _ at ran
  simp only [Run.bind, given, Run.assign, Run.onHeap] at ran
  cases assigned : between.heap.assign between.scope name value with
  | ok heap =>
    rw [assigned] at ran
    cases ran
    exact ⟨rfl, Heap.find?_of_assign assigned⟩
  | error error =>
    rw [assigned] at ran
    cases ran

/-- When the body of a function starts, its parameters mean its arguments. -/
theorem find?_entry {function : Function} {arguments : List Value}
    (fits : arguments.length = function.parameters.length)
    (distinct : (function.parameters.map Token.lexeme).Nodup) (machine : Machine) {position : Nat}
    {parameter : Token} {value : Value} (named : function.parameters[position]? = some parameter)
    (given : arguments[position]? = some value) :
    (function.entry arguments machine).heap.find? (function.entry arguments machine).scope
      parameter.lexeme = some value := by
  refine Heap.find?_of_local? ?_
  show ((machine.heap.scopes.push (function.scope arguments))[machine.heap.scopes.size]?).bind _ = _
  rw [Array.getElem?_push_size]
  exact (Function.find?_scope fits distinct).2 ⟨position, parameter, named, rfl, given⟩

namespace Task

variable {readings : Nat → Int64} {tasks : List (Nat × Task)}

/-- Whatever is stored on two machines of a journey is the same value if it is equal. -/
theorem journey_same_iff {first second : Machine}
    (one : first ∈ journey tasks (Machine.start readings))
    (other : second ∈ journey tasks (Machine.start readings)) {scope place : ScopeId}
    {name further : String} {left right : Value} (stored : first.heap.local? scope name = some left)
    (found : second.heap.local? place further = some right) :
    left.same right = true ↔ left = right := by
  obtain ⟨final, _, listed, _⟩ := journey_listed tasks (Machine.start_listed readings)
  have leftListed := ((listed first one).stores.bound stored).mono (List.take_prefix _ final)
  have rightListed := ((listed second other).stores.bound found).mono (List.take_prefix _ final)
  exact leftListed.same_iff_eq rightListed

/-- Functions stored on a machine of a journey were made before the number of callables there. -/
theorem identity_lt_of_journey {machine : Machine}
    (member : machine ∈ journey tasks (Machine.start readings)) {scope : ScopeId} {name : String}
    {made : Callable} (stored : machine.heap.local? scope name = some (.callable made)) :
    made.identity < machine.heap.callables := by
  obtain ⟨final, _, listed, _⟩ := journey_listed tasks (Machine.start_listed readings)
  have fits := listed machine member
  rw [fits.counted]
  exact (fits.stores.bound stored).identity_lt

/-- A function with the next identity is equal to nothing that has been stored so far. -/
theorem journey_fresh {position : Nat} {before earlier : Machine}
    (passed : (journey tasks (Machine.start readings))[position]? = some before)
    (among : earlier ∈ (journey tasks (Machine.start readings)).take (position + 1))
    {scope : ScopeId} {name : String} {value : Value}
    (stored : earlier.heap.local? scope name = some value) (routine : Routine) :
    (Value.callable ⟨before.heap.callables, routine⟩).same value = false := by
  obtain ⟨_, _, _, ordered⟩ := journey_listed tasks (Machine.start_listed readings)
  have order : earlier.Precedes before := by
    obtain ⟨index, placed⟩ := List.mem_iff_getElem?.1 among
    rw [List.getElem?_take] at placed
    split at placed
    · next within =>
      obtain ⟨start, rfl⟩ := List.getElem?_eq_some_iff.1 placed
      obtain ⟨stop, rfl⟩ := List.getElem?_eq_some_iff.1 passed
      rcases Nat.lt_or_eq_of_le (Nat.le_of_lt_succ within) with lower | rfl
      · exact List.pairwise_iff_getElem.1 ordered index position start stop lower
      · exact Nat.le_refl _
    · cases placed
  cases value with
  | callable made =>
    have older := identity_lt_of_journey (List.mem_of_mem_take among) stored
    have different : before.heap.callables ≠ made.identity :=
      Nat.ne_of_gt (Nat.lt_of_lt_of_le older order)
    exact beq_eq_false_iff_ne.2 different
  | _ => rfl

end Task

/-- Functions keep their identities. Equality is an equivalence relation on all values, and inequality
its negation. On the way through any tasks of a host, from a fresh machine on: a function that has just
been declared is equal to nothing that any scope has held until then, whether or not the same code was
executed before, and stored values are equal only if they are one. Reading a name, assigning to it,
passing an argument and returning leave a value as it is. -/
theorem functions_keep_identity :
    (∀ (sign : Token) (left right : Value),
      (sign.kind = .equal → applyOperator sign left right = .ok (.bool (left.same right))) ∧
      (sign.kind = .notEqual → applyOperator sign left right = .ok (.bool !left.same right))) ∧
    (Equivalence fun left right : Value => left.same right = true) ∧
    (∀ (readings : Nat → Int64) (tasks : List (Nat × Task)),
      (∀ task ∈ tasks, task.2.Hosted (Machine.start readings).globals) →
      let journey := Task.journey tasks (Machine.start readings)
      (∀ (position fuel : Nat) (name : Token) (parameters : List Token) (body : List Stmt)
        (before after : Machine), journey[position]? = some before →
        execute (fuel + 1) (.function name parameters body) before = (.done .normal, after) →
        ∃ made : Callable,
          made.routine = .declared { name, parameters, body, closure := before.scope } ∧
          after.heap.local? before.scope name.lexeme = some (.callable made) ∧
          ∀ earlier ∈ journey.take (position + 1), ∀ scope other value,
            earlier.heap.local? scope other = some value →
              (Value.callable made).same value = false) ∧
      ∀ first ∈ journey, ∀ second ∈ journey, ∀ scope name left place other right,
        first.heap.local? scope name = some left → second.heap.local? place other = some right →
          (left.same right = true ↔ left = right)) ∧
    (∀ (fuel : Nat) (name : Token) (machine : Machine) (value : Value),
      machine.heap.find? machine.scope name.lexeme = some value →
      evaluate (fuel + 1) (.var name) machine = (.done value, machine)) ∧
    (∀ (fuel : Nat) (name : Token) (expression : Expr) (machine between after : Machine)
      (value result : Value), evaluate fuel expression machine = (.done value, between) →
      evaluate (fuel + 1) (.assign name expression) machine = (.done result, after) →
      result = value ∧ after.heap.find? after.scope name.lexeme = some value) ∧
    ∀ (function : Function) (arguments : List Value) (machine : Machine),
      machine.depth < depthLimit → arguments.length = function.parameters.length →
      (function.parameters.map Token.lexeme).Nodup →
      (∀ (position : Nat) (parameter : Token) (value : Value),
        function.parameters[position]? = some parameter → arguments[position]? = some value →
        (function.entry arguments machine).heap.find? (function.entry arguments machine).scope
          parameter.lexeme = some value) ∧
      ∀ (fuel identity : Nat) (paren : Token) (exit : Exit) (value : Value),
        Stmt.RowComesTo fuel function.body (function.entry arguments machine) exit →
        exit.outcome = .done value →
          (Run.call (execute fuel) (.callable ⟨identity, .declared function⟩) arguments paren
            machine).1 = .done value := by
  refine ⟨?_, Value.same_equivalence, ?_, ?_, ?_, ?_⟩
  · intro sign left right
    refine ⟨fun equal => if_pos equal, fun different => ?_⟩
    unfold applyOperator
    rw [different]
    rfl
  · intro readings tasks hosted
    refine ⟨?_, ?_⟩
    · intro position fuel name parameters body before after passed ran
      have reachable := Task.journey_reachable .start (Nat.zero_le _) hosted before
        (List.mem_of_getElem? passed)
      have present : before.scope < before.heap.scopes.size := reachable.grounded.scope
      refine ⟨_, rfl, execute_function present ran, ?_⟩
      intro earlier among scope other value stored
      exact Task.journey_fresh passed among stored _
    · intro first one second other scope name left place further right stored found
      exact Task.journey_same_iff one other stored found
  · intro fuel name machine value found
    exact evaluate_var found fuel
  · intro fuel name expression machine between after value result given ran
    exact evaluate_assign given ran
  · intro function arguments machine below fits distinct
    refine ⟨?_, ?_⟩
    · intro position parameter value named given
      exact find?_entry fits distinct machine named given
    · intro fuel identity paren exit value comes gives
      have left := (row_returned_iff (execute_returned_iff fuel)).2 ⟨exit, comes, gives⟩
      rw [call_of_nodup fits fuel identity paren below distinct]
      exact Outcome.map_answer_eq_done_iff.2 (.inl left)

private def title (lexeme : String) : Token :=
  { kind := .identifier, lexeme, line := 1, span := ⟨0, 1⟩ }

private def makingCall : Expr := .call (.var (title "make")) (title ")") []

/-- `fun make() { fun inner() {} return inner; } var kept = make();` and then once more `make()` -/
private def madeTwice : List (Nat × Task) :=
  [(6, .interpret
      [.function (title "make") []
          [.function (title "inner") [] [], .ret (title "return") (some (.var (title "inner")))],
        .declare (title "kept") (some makingCall)]),
    (6, .evaluate makingCall)]

/-- The machine that is about to declare `inner` for the second time. -/
private def secondTime : Machine :=
  (Task.journey madeTwice (Machine.start fun _ => 0)).get ⟨19, by decide +kernel⟩

private def goesThrough : Outcome RuntimeError Flow × Machine → Bool
  | (.done .normal, _) => true
  | _ => false

private theorem eq_of_goesThrough {answer : Outcome RuntimeError Flow × Machine}
    (goes : goesThrough answer = true) : answer = (.done .normal, answer.2) := by
  unfold goesThrough at goes
  split at goes
  · rfl
  · cases goes

/-- By then the function declared the first time is in `kept`, and the new one is not equal to it. -/
theorem made_twice_differs :
    (∀ task ∈ madeTwice, task.2.Hosted (Machine.start fun _ => 0).globals) ∧
      (secondTime.heap.local? 0 "kept").map Value.text = some "<fn inner>" ∧
      ∃ made : Callable,
        (execute (0 + 1) (.function (title "inner") [] []) secondTime).2.heap.local?
          secondTime.scope (title "inner").lexeme = some (.callable made) ∧
        ∀ kept, secondTime.heap.local? 0 "kept" = some kept →
          (Value.callable made).same kept = false := by
  have hosted : ∀ task ∈ madeTwice, task.2.Hosted (Machine.start fun _ => 0).globals := by
    intro task member
    simp only [madeTwice, List.mem_cons, List.not_mem_nil, or_false] at member
    rcases member with rfl | rfl
    · exact .interpret _
    · exact .evaluate _
  have passed : (Task.journey madeTwice (Machine.start fun _ => 0))[19]? = some secondTime :=
    List.getElem?_eq_getElem _
  have first : secondTime ∈ (Task.journey madeTwice (Machine.start fun _ => 0)).take 20 :=
    List.mem_of_getElem? ((List.getElem?_take_of_lt (by decide)).trans passed)
  obtain ⟨-, -, journeys, -⟩ := functions_keep_identity
  obtain ⟨declared, -⟩ := journeys (fun _ => 0) madeTwice hosted
  obtain ⟨made, -, stored, differs⟩ := declared 19 0 (title "inner") [] [] secondTime _ passed
    (eq_of_goesThrough (by decide +kernel))
  exact ⟨hosted, by decide +kernel, made, stored, fun kept found =>
    differs secondTime first 0 "kept" kept found⟩

end TinyScript
