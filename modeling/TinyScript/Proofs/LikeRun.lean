import TinyScript.Proofs.LikeMachine
import TinyScript.Proofs.Trace

/-! Like programs run alike on like machines: each computation of the evaluator is taken with its
counterpart on the other machine, and both end in like ways on machines that are alike again. -/
namespace TinyScript

/-- Both give like values, or both fail with like errors, or both run out of steps. -/
inductive Outcome.Like (like : Likeness) {α β : Type} (values : α → β → Prop) :
    Outcome RuntimeError α → Outcome RuntimeError β → Prop where
  | done {value : α} {other : β} (same : values value other) :
      Like like values (.done value) (.done other)
  | failed {error other : RuntimeError} (same : error.Like like other) :
      Like like values (.failed error) (.failed other)
  | exhausted : Like like values .exhausted .exhausted

inductive Flow.Like (view : View) : Flow → Flow → Prop where
  | normal : Like view .normal .normal
  | returned {value other : Value} (same : value.Like view other) :
      Like view (.returned value) (.returned other)

/-- The same scope on both machines, and one that is seen. -/
def View.Shared (view : View) (scope other : ScopeId) : Prop := scope = other ∧ view.seen scope

/-- On machines that are alike the runs end in like ways, and the machines are alike again. -/
def Run.Like (view : View) {α β : Type} (values : α → β → Prop) (run : Run α) (other : Run β) :
    Prop :=
  ∀ ⦃machine machine' : Machine⦄, machine.Like view machine' →
    (run machine).1.Like view.toLikeness values (other machine').1 ∧
      (run machine).2.Like view (other machine').2

namespace Machine.Like

variable {view : View} {machine other : Machine}

theorem withHeap (same : machine.Like view other) {heap heap' : Heap} (alike : heap.Like view heap') :
    { machine with heap }.Like view { other with heap := heap' } :=
  { same with heap := alike }

theorem withScope (same : machine.Like view other) {scope : ScopeId} (seen : view.seen scope) :
    { machine with scope }.Like view { other with scope } :=
  { same with scope := rfl, seen }

theorem withDepth (same : machine.Like view other) (depth : Nat) :
    { machine with depth }.Like view { other with depth } :=
  { same with depth := rfl }

end Machine.Like

namespace Run.Like

variable {view : View}

section Combinators

variable {α α' β β' : Type} {values : α → α' → Prop} {results : β → β' → Prop}

theorem pure {value : α} {value' : α'} (same : values value value') :
    Run.Like view values (pure value) (pure value') :=
  fun _ _ alike => ⟨.done same, alike⟩

theorem bind {run : Run α} {run' : Run α'} {rest : α → Run β} {rest' : α' → Run β'}
    (first : run.Like view values run')
    (next : ∀ value value', values value value' → (rest value).Like view results (rest' value')) :
    Run.Like view results (run >>= rest) (run' >>= rest') := by
  intro machine machine' alike
  obtain ⟨outcomes, reached⟩ := first alike
  change (Run.bind run rest machine).1.Like _ _ (Run.bind run' rest' machine').1 ∧
    (Run.bind run rest machine).2.Like view (Run.bind run' rest' machine').2
  unfold Run.bind
  revert outcomes reached
  generalize run machine = ended, run' machine' = ended'
  obtain ⟨outcome, after⟩ := ended
  obtain ⟨outcome', after'⟩ := ended'
  intro outcomes reached
  cases outcomes with
  | done same => exact next _ _ same reached
  | failed same => exact ⟨.failed same, reached⟩
  | exhausted => exact ⟨.exhausted, reached⟩

theorem exhausted : Run.Like view values Run.exhausted Run.exhausted :=
  fun _ _ alike => ⟨.exhausted, alike⟩

theorem fail (cause : RuntimeCause) {mark mark' : Token} (same : view.marks mark mark') :
    Run.Like view values (Run.fail cause mark) (Run.fail cause mark') :=
  fun _ _ alike => ⟨.failed (.atMark cause same), alike⟩

theorem ofExcept {answer : Except RuntimeError α} {answer' : Except RuntimeError α'}
    (same : AlikeAnswers view.toLikeness values answer answer') :
    Run.Like view values (Run.ofExcept answer) (Run.ofExcept answer') := by
  intro machine machine' alike
  cases same with
  | ok same => exact ⟨.done same, alike⟩
  | error same => exact ⟨.failed same, alike⟩

theorem inScope {run : Run α} {run' : Run α'} {scope scope' : ScopeId}
    (shared : view.Shared scope scope') (body : run.Like view values run') :
    (run.inScope scope).Like view values (run'.inScope scope') := by
  obtain ⟨rfl, seen⟩ := shared
  intro machine machine' alike
  obtain ⟨outcomes, reached⟩ := body (alike.withScope seen)
  have back := reached.withScope alike.seen
  rw [alike.scope] at back
  refine ⟨outcomes, ?_⟩
  simpa only [Run.inScope, alike.scope] using back

theorem nested {run : Run α} {run' : Run α'} {paren paren' : Token}
    (mark : view.marks paren paren') (body : run.Like view values run') :
    (run.nested paren).Like view values (run'.nested paren') := by
  intro machine machine' alike
  unfold Run.nested
  rw [alike.depth]
  split
  · exact ⟨.failed (.atMark _ mark), alike⟩
  · obtain ⟨outcomes, reached⟩ := body (alike.withDepth (machine'.depth + 1))
    exact ⟨outcomes, { reached with depth := congrArg (· - 1) reached.depth }⟩

theorem collect {sources : β → β' → Prop} {compute : β → Run α} {compute' : β' → Run α'}
    (each : ∀ source source', sources source source' →
      (compute source).Like view values (compute' source'))
    {elements : List β} {elements' : List β'} (same : List.Forall₂ sources elements elements') :
    Run.Like view (List.Forall₂ values) (Run.collect compute elements)
      (Run.collect compute' elements') := by
  induction same with
  | nil => exact pure .nil
  | cons first _ ih =>
    apply bind (each _ _ first)
    intro value value' one
    apply bind ih
    intro others others' more
    exact pure (.cons one more)

end Combinators

theorem lookup {name name' : Token} (named : view.names name name') :
    Run.Like view (Value.Like view) (Run.lookup name) (Run.lookup name') := by
  intro machine machine' alike
  have answers := alike.heap.get_alike alike.seen named
  unfold Run.lookup
  rw [← alike.scope]
  revert answers
  generalize machine.heap.get machine.scope name = answer,
    machine'.heap.get machine.scope name' = answer'
  intro answers
  cases answers with
  | ok same => exact ⟨.done same, alike⟩
  | error same => exact ⟨.failed same, alike⟩

theorem onHeap {change change' : Heap → ScopeId → Except RuntimeError Heap}
    (alike : ∀ heap heap' scope scope', heap.Like view heap' → view.Shared scope scope' →
      AlikeAnswers view.toLikeness (Heap.Like view) (change heap scope) (change' heap' scope')) :
    Run.Like view Eq (Run.onHeap change) (Run.onHeap change') := by
  intro machine machine' same
  have answers := alike _ _ _ _ same.heap ⟨same.scope, same.seen⟩
  unfold Run.onHeap
  revert answers
  generalize change machine.heap machine.scope = answer,
    change' machine'.heap machine'.scope = answer'
  intro answers
  cases answers with
  | ok changed => exact ⟨.done rfl, same.withHeap changed⟩
  | error failed => exact ⟨.failed failed, same⟩

theorem assign {name name' : Token} (named : view.names name name') {value value' : Value}
    (given : value.Like view value') :
    Run.Like view Eq (Run.assign name value) (Run.assign name' value') :=
  onHeap fun _ _ _ _ same ⟨equal, seen⟩ => equal ▸ same.assign_alike seen named given

theorem define {name name' : Token} (named : view.names name name') {value value' : Value}
    (given : value.Like view value') :
    Run.Like view Eq (Run.define name value) (Run.define name' value') :=
  onHeap fun _ _ _ _ same ⟨equal, seen⟩ => equal ▸ same.define_alike seen named given

theorem defineIn {scope : ScopeId} (seen : view.seen scope) {name name' : Token}
    (named : view.names name name') {value value' : Value} (given : value.Like view value') :
    Run.Like view Eq (Run.defineIn scope name value) (Run.defineIn scope name' value') :=
  onHeap fun _ _ _ _ same _ => same.define_alike seen named given

theorem currentScope : Run.Like view view.Shared Run.currentScope Run.currentScope :=
  fun _ _ alike => ⟨.done ⟨alike.scope, alike.seen⟩, alike⟩

theorem newScope {enclosing enclosing' : ScopeId} (shared : view.Shared enclosing enclosing') :
    Run.Like view view.Shared (Run.newScope enclosing) (Run.newScope enclosing') := by
  obtain ⟨rfl, seen⟩ := shared
  intro machine machine' alike
  obtain ⟨number, fresh, added⟩ := alike.heap.addScope_alike seen
  exact ⟨.done ⟨number, fresh⟩, alike.withHeap added⟩

theorem newCallable {function function' : Function} (same : function.Like view function') :
    Run.Like view (fun callable callable' =>
        (Value.callable callable).Like view (Value.callable callable'))
      (Run.newCallable (.declared function)) (Run.newCallable (.declared function')) := by
  intro machine machine' alike
  have number := alike.heap.callables
  refine ⟨.done ?_, alike.withHeap { alike.heap with callables := congrArg (· + 1) number }⟩
  rw [number]
  exact .declared _ same

theorem emit (text : String) : Run.Like view Eq (Run.emit text) (Run.emit text) :=
  fun _ _ alike => ⟨.done rfl, { alike with output := congrArg (· ++ text) alike.output }⟩

theorem readClock : Run.Like view Eq Run.readClock Run.readClock := by
  intro machine machine' alike
  unfold Run.readClock
  rw [alike.clock]
  exact ⟨.done rfl, { alike with clock := rfl }⟩

theorem callNative (builtin : Native) {arguments arguments' : List Value}
    (given : List.Forall₂ (Value.Like view) arguments arguments') {paren paren' : Token}
    (mark : view.marks paren paren') :
    Run.Like view (Value.Like view) (callNative builtin arguments paren)
      (callNative builtin arguments' paren') := by
  have printed (text : String) : Run.Like view (Value.Like view)
      (Run.emit text >>= fun _ => Pure.pure Value.nil)
      (Run.emit text >>= fun _ => Pure.pure Value.nil) :=
    bind (emit text) fun _ _ _ => pure .nil
  unfold TinyScript.callNative joinedText
  rw [Value.Like.texts_eq given, Value.Like.hexTexts_eq given]
  cases builtin with
  | clock =>
    apply bind readClock
    rintro reading _ rfl
    exact pure (.int reading)
  | print => exact printed _
  | println => exact printed _
  | inHex =>
    cases arguments'.mapM Value.hexText? with
    | some texts => exact printed _
    | none => exact fail _ mark

theorem bindParameters {scope scope' : ScopeId} (shared : view.Shared scope scope')
    {parameters parameters' : List Token} (named : List.Forall₂ view.names parameters parameters')
    {arguments arguments' : List Value}
    (given : List.Forall₂ (Value.Like view) arguments arguments') :
    Run.Like view Eq (Run.bindParameters scope (parameters.zip arguments))
      (Run.bindParameters scope' (parameters'.zip arguments')) := by
  obtain ⟨rfl, seen⟩ := shared
  induction named generalizing arguments arguments' with
  | nil => exact pure rfl
  | cons name _ ih =>
    cases given with
    | nil => exact pure rfl
    | cons value others =>
      apply bind (defineIn seen name value)
      intro _ _ _
      exact ih others

section Statements

variable {execute execute' : Stmt → Run Flow}
variable (each : ∀ statement statement', statement.Like view.toLikeness statement' →
  (execute statement).Like view (Flow.Like view) (execute' statement'))
include each

theorem sequence {statements statements' : List Stmt}
    (same : List.Forall₂ (Stmt.Like view.toLikeness) statements statements') :
    Run.Like view (Flow.Like view) (Run.sequence execute statements)
      (Run.sequence execute' statements') := by
  induction same with
  | nil => exact pure .normal
  | cons first _ ih =>
    apply bind (each _ _ first)
    intro flow flow' alike
    cases alike with
    | normal => exact ih
    | returned value => exact pure (.returned value)

theorem block {enclosing enclosing' : ScopeId} (shared : view.Shared enclosing enclosing')
    {statements statements' : List Stmt}
    (same : List.Forall₂ (Stmt.Like view.toLikeness) statements statements') :
    Run.Like view (Flow.Like view) (Run.block execute enclosing statements)
      (Run.block execute' enclosing' statements') := by
  apply bind (newScope shared)
  intro scope scope' opened
  exact inScope opened (sequence each same)

theorem callFunction {function function' : Function} (same : function.Like view function')
    {arguments arguments' : List Value}
    (given : List.Forall₂ (Value.Like view) arguments arguments') :
    Run.Like view (Value.Like view) (Run.callFunction execute function arguments)
      (Run.callFunction execute' function' arguments') := by
  apply bind (newScope ⟨same.closure, same.seen⟩)
  intro scope scope' opened
  apply bind (bindParameters opened same.parameters given)
  intro _ _ _
  apply bind (inScope opened (sequence each same.body))
  intro flow flow' alike
  cases alike with
  | normal => exact pure .nil
  | returned value => exact pure value

theorem call {callee callee' : Value} (called : callee.Like view callee')
    {arguments arguments' : List Value}
    (given : List.Forall₂ (Value.Like view) arguments arguments') {paren paren' : Token}
    (mark : view.marks paren paren') :
    Run.Like view (Value.Like view) (Run.call execute callee arguments paren)
      (Run.call execute' callee' arguments' paren') := by
  cases called with
  | builtIn identity builtin =>
    have entered := nested mark (callNative builtin given mark)
    simp only [Run.call_callable, given.length_eq]
    cases (Routine.builtIn builtin).arity with
    | variadic => exact entered
    | fixed expected =>
      dsimp only
      split
      · exact entered
      · exact fail _ mark
  | @declared identity function function' same =>
    have entered := nested mark (callFunction each same given)
    simp only [Run.call_callable, given.length_eq, Routine.arity, same.parameters.length_eq]
    split
    · exact entered
    · exact fail _ mark
  | _ => exact fail .notCallable mark

end Statements

section Levels

variable {fuel : Nat}
variable (values : ∀ expression expression', expression.Like view.toLikeness expression' →
  (evaluate fuel expression).Like view (Value.Like view) (evaluate fuel expression'))
variable (flows : ∀ statement statement', statement.Like view.toLikeness statement' →
  (execute fuel statement).Like view (Flow.Like view) (execute fuel statement'))
include values flows

theorem evaluate_succ {expression expression' : Expr}
    (same : expression.Like view.toLikeness expression') :
    (evaluate (fuel + 1) expression).Like view (Value.Like view)
      (evaluate (fuel + 1) expression') := by
  cases same with
  | literal value => exact pure (.ofPrimitive value)
  | grouping inner => exact values _ _ inner
  | unary mark right =>
    apply bind (values _ _ right)
    intro right right' alike
    exact ofExcept (alike_applySign mark alike)
  | binary left mark right =>
    apply bind (values _ _ left)
    intro left left' first
    apply bind (values _ _ right)
    intro right right' second
    exact ofExcept (alike_applyOperator mark first second)
  | logical left mark right =>
    apply bind (values _ _ left)
    intro left left' first
    simp only [settles_eq mark first]
    split
    · exact pure first
    · exact values _ _ right
  | var named => exact lookup named
  | assign named value =>
    apply bind (values _ _ value)
    intro value value' given
    apply bind (assign named given)
    intro _ _ _
    exact pure given
  | call callee mark arguments =>
    apply bind (values _ _ callee)
    intro callee callee' called
    apply bind (collect values arguments)
    intro arguments arguments' given
    exact call flows called given mark
  | increment named mark =>
    apply bind (lookup named)
    intro value value' alike
    cases alike with
    | int value =>
      apply bind (ofExcept (alike_stepped mark value))
      intro value value' given
      apply bind (assign named given)
      intro _ _ _
      exact pure given
    | _ => exact fail .operandMustBeInteger mark

theorem execute_succ {statement statement' : Stmt}
    (same : statement.Like view.toLikeness statement') :
    (execute (fuel + 1) statement).Like view (Flow.Like view)
      (execute (fuel + 1) statement') := by
  cases same with
  | expression value =>
    apply bind (values _ _ value)
    intro _ _ _
    exact pure .normal
  | declare named initializer =>
    cases initializer with
    | some initializer =>
      apply bind (values _ _ initializer)
      intro value value' given
      exact bind (define named given) fun _ _ _ => pure .normal
    | none =>
      apply bind (pure Value.Like.nil)
      intro value value' given
      exact bind (define named given) fun _ _ _ => pure .normal
  | block statements =>
    apply bind currentScope
    intro enclosing enclosing' shared
    exact block flows shared statements
  | branch condition consequent alternative =>
    apply bind (values _ _ condition)
    intro value value' alike
    simp only [alike.isTruthy_eq]
    split
    · exact flows _ _ consequent
    · cases alternative with
      | some alternative => exact flows _ _ alternative
      | none => exact pure .normal
  | loop condition body =>
    apply bind (values _ _ condition)
    intro value value' alike
    simp only [alike.isTruthy_eq]
    split
    · apply bind (flows _ _ body)
      intro flow flow' ended
      cases ended with
      | normal => exact flows _ _ (.loop condition body)
      | returned value => exact pure (.returned value)
    · exact pure .normal
  | function named parameters body =>
    apply bind currentScope
    intro closure closure' shared
    apply bind (newCallable ⟨named, parameters, body, shared.1, shared.2⟩)
    intro callable callable' made
    apply bind (define named made)
    intro _ _ _
    exact pure .normal
  | ret mark value =>
    cases value with
    | some value =>
      apply bind (values _ _ value)
      intro value value' alike
      exact pure (.returned alike)
    | none => exact pure (.returned .nil)

end Levels

/-- Like expressions and like statements do alike with the same number of steps. -/
theorem evaluation (view : View) (fuel : Nat) :
    (∀ expression expression', expression.Like view.toLikeness expression' →
      (evaluate fuel expression).Like view (Value.Like view) (evaluate fuel expression')) ∧
    (∀ statement statement', statement.Like view.toLikeness statement' →
      (execute fuel statement).Like view (Flow.Like view) (execute fuel statement')) := by
  -- On the steps, not on the trees: a loop goes on with itself, and a call with a body from the heap.
  induction fuel with
  | zero => exact ⟨fun _ _ _ => exhausted, fun _ _ _ => exhausted⟩
  | succ fuel ih =>
    obtain ⟨values, flows⟩ := ih
    exact ⟨fun _ _ same => evaluate_succ values flows same,
      fun _ _ same => execute_succ values flows same⟩

theorem program (fuel : Nat) {statements statements' : List Stmt}
    (same : List.Forall₂ (Stmt.Like view.toLikeness) statements statements') :
    Run.Like view (Flow.Like view) (Run.sequence (execute fuel) statements)
      (Run.sequence (execute fuel) statements') :=
  sequence (evaluation view fuel).2 same

theorem interpret (fuel : Nat) {statements statements' : List Stmt}
    (same : List.Forall₂ (Stmt.Like view.toLikeness) statements statements') :
    Run.Like view Eq (interpret fuel statements) (interpret fuel statements') := by
  apply bind (program fuel same)
  intro _ _ _
  exact pure rfl

end Run.Like

end TinyScript
