import TinyScript.Proofs.Trace

/-! More fuel changes nothing but outcomes that were exhausted: a run that ends with some fuel ends in
the same way, on the same machine, with any larger amount, and one that is exhausted has printed part of
what it prints with more. -/
namespace TinyScript

/-- Since the one machine, the other has only printed on. -/
def Machine.PrintsOn (machine reached : Machine) : Prop :=
  ∃ more, reached.output = machine.output ++ more

namespace Machine.PrintsOn

theorem of_same {machine reached : Machine} (same : reached.output = machine.output) :
    machine.PrintsOn reached :=
  ⟨"", same.trans String.append_empty.symm⟩

theorem trans {first second third : Machine} (earlier : first.PrintsOn second)
    (later : second.PrintsOn third) : first.PrintsOn third := by
  obtain ⟨text, printed⟩ := earlier
  obtain ⟨more, also⟩ := later
  exact ⟨text ++ more, by rw [also, printed, String.append_assoc]⟩

end Machine.PrintsOn

namespace Run

/-- The run takes nothing back that has been printed. -/
def PrintsOn {α : Type} (run : Run α) : Prop :=
  ∀ machine : Machine, machine.PrintsOn (run machine).2

theorem onHeap_printsOn (change : Heap → ScopeId → Except RuntimeError Heap) :
    (onHeap change).PrintsOn := by
  intro machine
  unfold onHeap
  cases change machine.heap machine.scope <;> exact .of_same rfl

theorem callNative_printsOn (builtin : Native) (arguments : List Value) (paren : Token) :
    (callNative builtin arguments paren).PrintsOn := by
  intro machine
  unfold callNative
  cases builtin with
  | clock => exact .of_same rfl
  | print => exact ⟨_, rfl⟩
  | println => exact ⟨_, rfl⟩
  | inHex =>
    cases arguments.mapM Value.hexText? with
    | some texts => exact ⟨_, rfl⟩
    | none => exact .of_same rfl

theorem Elementary.printsOn {α : Type} {run : Run α} (elementary : run.Elementary) :
    run.PrintsOn := by
  cases elementary with
  | exhausted | fail | currentScope | newScope | newCallable => exact fun _ => .of_same rfl
  | ofExcept answer => cases answer <;> exact fun _ => .of_same rfl
  | lookup name =>
    intro machine
    unfold Run.lookup
    cases machine.heap.get machine.scope name <;> exact .of_same rfl
  | assign name value => exact onHeap_printsOn _
  | define name value => exact onHeap_printsOn _
  | defineIn scope name value => exact onHeap_printsOn _
  | native builtin arguments paren => exact callNative_printsOn builtin arguments paren

section Rules

variable {α β : Type}

theorem printsOn_pure (value : α) : (Pure.pure value : Run α).PrintsOn := fun _ => .of_same rfl

/-- What goes on prints on from where the first part got to. -/
theorem bind_printsOn (run : Run α) {rest : α → Run β} (each : ∀ value, (rest value).PrintsOn)
    (machine : Machine) : (run machine).2.PrintsOn ((run >>= rest) machine).2 := by
  change (run machine).2.PrintsOn (Run.bind run rest machine).2
  unfold Run.bind
  rcases run machine with ⟨outcome, reached⟩
  cases outcome with
  | done value => exact each value reached
  | failed error => exact .of_same rfl
  | exhausted => exact .of_same rfl

theorem PrintsOn.bind {run : Run α} {rest : α → Run β} (first : run.PrintsOn)
    (each : ∀ value, (rest value).PrintsOn) : (run >>= rest).PrintsOn :=
  fun machine => (first machine).trans (bind_printsOn run each machine)

theorem PrintsOn.inScope {run : Run α} (scope : ScopeId) (body : run.PrintsOn) :
    (run.inScope scope).PrintsOn :=
  fun machine => body { machine with scope }

theorem PrintsOn.nested {run : Run α} (paren : Token) (body : run.PrintsOn) :
    (run.nested paren).PrintsOn := by
  intro machine
  unfold Run.nested
  split
  · exact .of_same rfl
  · exact body { machine with depth := machine.depth + 1 }

end Rules

theorem compositional_printsOn : Compositional fun _ _ run => run.PrintsOn where
  pure := printsOn_pure
  step := Elementary.printsOn
  apply application := Elementary.printsOn (.ofExcept application.result)
  bind := PrintsOn.bind
  inScope := PrintsOn.inScope
  nested := PrintsOn.nested

/-- The other run does what this one does wherever this one is not exhausted, and prints all that this
one has printed if it is. -/
structure ExtendedBy {α : Type} (run longer : Run α) : Prop where
  same : ∀ machine, (run machine).1 ≠ .exhausted → longer machine = run machine
  ahead : ∀ machine, (run machine).2.PrintsOn (longer machine).2
  printsOn : longer.PrintsOn

namespace ExtendedBy

section Combinators

variable {α β : Type}

theorem refl {run : Run α} (prints : run.PrintsOn) : run.ExtendedBy run :=
  ⟨fun _ _ => rfl, fun _ => .of_same rfl, prints⟩

theorem pure (value : α) : (Pure.pure value : Run α).ExtendedBy (Pure.pure value) :=
  refl (printsOn_pure value)

theorem step {run : Run α} (elementary : run.Elementary) : run.ExtendedBy run :=
  refl elementary.printsOn

theorem exhausted {run : Run α} (prints : run.PrintsOn) : Run.exhausted.ExtendedBy run :=
  ⟨fun _ ends => absurd rfl ends, prints, prints⟩

theorem bind {run longer : Run α} {rest onwards : α → Run β} (first : run.ExtendedBy longer)
    (next : ∀ value, (rest value).ExtendedBy (onwards value)) :
    (run >>= rest).ExtendedBy (longer >>= onwards) := by
  have further := bind_printsOn longer fun value => (next value).printsOn
  refine ⟨?_, ?_, first.printsOn.bind fun value => (next value).printsOn⟩
  · intro machine ends
    have same := first.same machine
    change Run.bind longer onwards machine = Run.bind run rest machine
    change (Run.bind run rest machine).1 ≠ .exhausted at ends
    unfold Run.bind at ends ⊢
    rcases ran : run machine with ⟨outcome, reached⟩
    rw [ran] at ends same
    cases outcome with
    | done value =>
      rw [same (by simp)]
      exact (next value).same reached ends
    | failed error => rw [same (by simp)]
    | exhausted => exact absurd rfl ends
  · intro machine
    have same := first.same machine
    have onwards := (first.ahead machine).trans (further machine)
    change (Run.bind run rest machine).2.PrintsOn (Run.bind longer _ machine).2
    change (run machine).2.PrintsOn (Run.bind longer _ machine).2 at onwards
    unfold Run.bind at onwards ⊢
    rcases ran : run machine with ⟨outcome, reached⟩
    rw [ran] at same onwards
    cases outcome with
    | done value =>
      rw [same (by simp)]
      exact (next value).ahead reached
    | failed error => exact onwards
    | exhausted => exact onwards

theorem inScope {run longer : Run α} (scope : ScopeId) (body : run.ExtendedBy longer) :
    (run.inScope scope).ExtendedBy (longer.inScope scope) := by
  refine ⟨?_, fun machine => body.ahead { machine with scope }, body.printsOn.inScope scope⟩
  intro machine ends
  have same := body.same { machine with scope } ends
  simp only [Run.inScope, same]

theorem nested {run longer : Run α} (paren : Token) (body : run.ExtendedBy longer) :
    (run.nested paren).ExtendedBy (longer.nested paren) := by
  refine ⟨?_, ?_, body.printsOn.nested paren⟩
  · intro machine ends
    unfold Run.nested at ends ⊢
    split
    · rfl
    · next room =>
      rw [if_neg room] at ends
      rw [body.same { machine with depth := machine.depth + 1 } ends]
  · intro machine
    unfold Run.nested
    split
    · exact .of_same rfl
    · exact body.ahead { machine with depth := machine.depth + 1 }

theorem collect {compute longer : α → Run β}
    (each : ∀ source, (compute source).ExtendedBy (longer source)) (sources : List α) :
    (Run.collect compute sources).ExtendedBy (Run.collect longer sources) := by
  induction sources with
  | nil => exact pure []
  | cons first others ih =>
    apply bind (each first)
    intro value
    exact bind ih fun values => pure (value :: values)

end Combinators

section Statements

variable {execute longer : Stmt → Run Flow}
variable (each : ∀ statement, (execute statement).ExtendedBy (longer statement))
include each

theorem sequence (statements : List Stmt) :
    (Run.sequence execute statements).ExtendedBy (Run.sequence longer statements) := by
  induction statements with
  | nil => exact pure Flow.normal
  | cons first others ih =>
    apply bind (each first)
    intro flow
    cases flow with
    | normal => exact ih
    | returned value => exact pure (Flow.returned value)

theorem block (enclosing : ScopeId) (statements : List Stmt) :
    (Run.block execute enclosing statements).ExtendedBy (Run.block longer enclosing statements) := by
  apply bind (step (.newScope enclosing))
  intro scope
  exact inScope scope (sequence each statements)

theorem callFunction (function : Function) (arguments : List Value) :
    (Run.callFunction execute function arguments).ExtendedBy
      (Run.callFunction longer function arguments) := by
  apply bind (step (.newScope function.closure))
  intro scope
  apply bind (refl (compositional_printsOn.bindParameters scope _))
  intro _
  apply bind (inScope scope (sequence each function.body))
  intro flow
  cases flow with
  | normal => exact pure Value.nil
  | returned value => exact pure value

theorem routine (arguments : List Value) (paren : Token) (routine : Routine) :
    (Run.routine execute arguments paren routine).ExtendedBy
      (Run.routine longer arguments paren routine) := by
  cases routine with
  | builtIn builtin => exact step (.native builtin arguments paren)
  | declared function => exact callFunction each function arguments

theorem call (callee : Value) (arguments : List Value) (paren : Token) :
    (Run.call execute callee arguments paren).ExtendedBy
      (Run.call longer callee arguments paren) := by
  cases callee with
  | callable callable =>
    have entered := nested paren (routine each arguments paren callable.routine)
    rw [Run.call_callable, Run.call_callable]
    cases callable.routine.arity with
    | variadic => exact entered
    | fixed expected =>
      by_cases fits : arguments.length = expected
      · simpa only [fits, if_true] using entered
      · simpa only [fits, if_false] using step (.fail _ paren)
  | _ => exact step (.fail .notCallable paren)

end Statements

section Levels

variable {fuel more : Nat}
variable (values : ∀ expression, (evaluate fuel expression).ExtendedBy (evaluate more expression))
variable (flows : ∀ statement, (execute fuel statement).ExtendedBy (execute more statement))
include values flows

theorem evaluate_succ (expression : Expr) :
    (evaluate (fuel + 1) expression).ExtendedBy (evaluate (more + 1) expression) := by
  cases expression with
  | literal value => exact pure (Value.ofPrimitive value)
  | grouping inner => exact values inner
  | unary operator right =>
    apply bind (values right)
    intro right
    exact step (.ofExcept _)
  | binary left operator right =>
    apply bind (values left)
    intro left
    apply bind (values right)
    intro right
    exact step (.ofExcept _)
  | logical left operator right =>
    apply bind (values left)
    intro left
    by_cases settled : settles operator left
    · simpa only [settled, if_true] using pure left
    · simpa only [settled, Bool.false_eq_true, if_false] using values right
  | var name => exact step (.lookup name)
  | assign name value =>
    apply bind (values value)
    intro value
    exact bind (step (.assign name value)) fun _ => pure value
  | call callee paren arguments =>
    apply bind (values callee)
    intro callee
    apply bind (collect values arguments)
    intro arguments
    exact call flows callee arguments paren
  | increment name sign =>
    exact refl ((compositional_printsOn.evaluation (fuel + 1)).1 (.increment name sign))

theorem execute_succ (statement : Stmt) :
    (execute (fuel + 1) statement).ExtendedBy (execute (more + 1) statement) := by
  cases statement with
  | expression value => exact bind (values value) fun _ => pure Flow.normal
  | declare name initializer =>
    have declared (value : Value) : (Run.define name value >>= fun _ => Pure.pure Flow.normal).ExtendedBy
        (Run.define name value >>= fun _ => Pure.pure Flow.normal) :=
      bind (step (.define name value)) fun _ => pure Flow.normal
    cases initializer with
    | some initializer => exact bind (values initializer) declared
    | none => exact bind (pure Value.nil) declared
  | block statements =>
    apply bind (step .currentScope)
    intro enclosing
    exact block flows enclosing statements
  | branch condition consequent alternative =>
    apply bind (values condition)
    intro value
    by_cases truthy : value.isTruthy
    · simpa only [truthy, if_true] using flows consequent
    · simp only [truthy]
      cases alternative with
      | some alternative => exact flows alternative
      | none => exact pure Flow.normal
  | loop condition body =>
    apply bind (values condition)
    intro value
    by_cases truthy : value.isTruthy
    · simp only [truthy, if_true]
      apply bind (flows body)
      intro flow
      cases flow with
      | normal => exact flows (.loop condition body)
      | returned value => exact pure (Flow.returned value)
    · simpa only [truthy, Bool.false_eq_true, if_false] using pure Flow.normal
  | function name parameters body =>
    exact refl ((compositional_printsOn.evaluation (fuel + 1)).2 (.function name parameters body))
  | ret keyword value =>
    cases value with
    | some value => exact bind (values value) fun value => pure (Flow.returned value)
    | none => exact pure (Flow.returned .nil)

end Levels

/-- Evaluation with more fuel extends evaluation with less. -/
theorem evaluation {fuel more : Nat} (enough : fuel ≤ more) :
    (∀ expression, (evaluate fuel expression).ExtendedBy (evaluate more expression)) ∧
    (∀ statement, (execute fuel statement).ExtendedBy (execute more statement)) := by
  induction fuel generalizing more with
  | zero =>
    obtain ⟨values, flows⟩ := compositional_printsOn.evaluation more
    exact ⟨fun expression => exhausted (values expression),
      fun statement => exhausted (flows statement)⟩
  | succ fuel ih =>
    obtain ⟨rest, rfl⟩ := Nat.exists_eq_succ_of_ne_zero (Nat.ne_zero_of_lt enough)
    obtain ⟨values, flows⟩ := ih (Nat.le_of_succ_le_succ enough)
    exact ⟨evaluate_succ values flows, execute_succ values flows⟩

theorem interpret {fuel more : Nat} (enough : fuel ≤ more) (statements : List Stmt) :
    (interpret fuel statements).ExtendedBy (interpret more statements) :=
  bind (sequence (evaluation enough).2 statements) fun _ => pure ()

end ExtendedBy

end Run

end TinyScript
