import Mathlib
import TinyScript.Proofs.MoreFuel
import TinyScript.Proofs.StatementShape
import TinyScript.Proofs.Stores

/-! Programs without loops end. Functions may call each other in any way, but calls nest only so deep,
and between two calls evaluation goes down the tree of one program text. What it takes is measured by
the room left for calls first and by the size of the tree second; bodies never get larger on the way, as
functions are declared by parts of what is there already. -/
namespace TinyScript

def Stmt.isLoop : Stmt → Bool
  | .loop .. => true
  | _ => false

/-- Neither the statement nor any statement inside it, function bodies included, is a loop. -/
def Stmt.LoopFree (statement : Stmt) : Prop :=
  ∀ part ∈ statement :: statement.inner, part.isLoop = false

instance (statement : Stmt) : Decidable statement.LoopFree :=
  inferInstanceAs (Decidable (∀ part ∈ _, _ = false))

/-- The statements a function runs when it is called; other values run none. -/
def Value.body : Value → List Stmt
  | .callable ⟨_, .declared function⟩ => function.body
  | _ => []

/-- If the value is a function, there is no loop in it. -/
def Value.LoopFree (value : Value) : Prop := ∀ statement ∈ value.body, statement.LoopFree

/-- A statement without loops that is of the given size or less. -/
structure Stmt.Modest (size : Nat) (statement : Stmt) : Prop where
  loopFree : statement.LoopFree
  small : sizeOf statement ≤ size

/-- If the value is a function, its statements are modest. -/
def Value.Modest (size : Nat) (value : Value) : Prop := ∀ statement ∈ value.body, statement.Modest size

def Flow.Modest (size : Nat) : Flow → Prop
  | .normal => True
  | .returned value => value.Modest size

variable {size depth : Nat}

theorem Value.IsPlain.modest {value : Value} (plain : value.IsPlain) : value.Modest size := by
  cases value with
  | callable callable => exact plain.elim
  | _ =>
    intro statement member
    cases member

namespace Stmt.Modest

variable {name : Token} {condition : Expr} {statement first : Stmt}
variable {statements : List Stmt}

theorem part (modest : statement.Modest size) (inside : first :: first.inner ⊆ statement.inner)
    (smaller : sizeOf first ≤ sizeOf statement) : first.Modest size :=
  ⟨fun other member => modest.loopFree other (List.mem_cons_of_mem _ (inside member)),
    Nat.le_trans smaller modest.small⟩

theorem not_loop : ¬ (loop condition first).Modest size :=
  fun modest => absurd (modest.loopFree _ List.mem_cons_self) (by simp [isLoop])

theorem block (modest : (block statements).Modest size) :
    ∀ statement ∈ statements, statement.Modest size := by
  intro statement member
  have smaller := List.sizeOf_lt_of_mem member
  refine modest.part (parts_subset member) ?_
  rw [Stmt.block.sizeOf_spec]
  omega

theorem function {parameters : List Token} (modest : (function name parameters statements).Modest size) :
    ∀ statement ∈ statements, statement.Modest size := by
  intro statement member
  have smaller := List.sizeOf_lt_of_mem member
  refine modest.part (parts_subset member) ?_
  rw [Stmt.function.sizeOf_spec]
  omega

theorem branch {alternative : Option Stmt} (modest : (branch condition first alternative).Modest size) :
    first.Modest size ∧ ∀ last ∈ alternative, last.Modest size := by
  have smaller : sizeOf first ≤ sizeOf (Stmt.branch condition first alternative) := by
    rw [Stmt.branch.sizeOf_spec]
    omega
  cases alternative with
  | none => exact ⟨modest.part (List.Subset.refl _) smaller, by simp⟩
  | some last =>
    refine ⟨modest.part (List.subset_append_left _ _) smaller, ?_⟩
    rintro _ ⟨⟩
    refine modest.part (List.subset_append_right _ _) ?_
    rw [Stmt.branch.sizeOf_spec, Option.some.sizeOf_spec]
    omega

end Stmt.Modest

/-- On a heap of functions without loops there is a size that none of them exceeds. -/
theorem Heap.Stores.exists_modest {heap : Heap} (stores : heap.Stores Value.LoopFree) (least : Nat) :
    ∃ size, least ≤ size ∧ heap.Stores (Value.Modest size) := by
  let sizes := heap.scopes.toList.flatMap fun scope =>
    scope.bindings.flatMap fun binding => binding.2.body.map sizeOf
  refine ⟨least + sizes.sum, Nat.le_add_right _ _, ?_⟩
  intro id scope stored binding bound statement member
  have present : scope ∈ heap.scopes.toList := Array.mem_toList_iff.2 (Array.mem_of_getElem? stored)
  have listed : sizeOf statement ∈ sizes :=
    List.mem_flatMap.2 ⟨scope, present, List.mem_flatMap.2 ⟨binding, bound, List.mem_map_of_mem member⟩⟩
  exact ⟨stores id scope stored binding bound statement member,
    Nat.le_trans (List.le_sum_of_mem listed) (Nat.le_add_left _ _)⟩

/-- The run has ended at the given call depth, and all functions are modest: with a value of the given
sort, or with an error. -/
inductive Halted (size depth : Nat) {α : Type} (values : α → Prop) :
    Outcome RuntimeError α × Machine → Prop where
  | done {value : α} {reached : Machine} (fine : values value) (level : reached.depth = depth)
      (heap : reached.heap.Stores (Value.Modest size)) : Halted size depth values (.done value, reached)
  | failed {error : RuntimeError} {reached : Machine} (level : reached.depth = depth)
      (heap : reached.heap.Stores (Value.Modest size)) :
      Halted size depth values (.failed error, reached)

/-- At the given call depth, and where all functions are modest, the run ends. -/
def Run.Halts (size depth : Nat) {α : Type} (values : α → Prop) (run : Run α) : Prop :=
  ∀ machine : Machine, machine.depth = depth → machine.heap.Stores (Value.Modest size) →
    Halted size depth values (run machine)

namespace Halted

variable {α : Type} {values : α → Prop} {answer : Outcome RuntimeError α × Machine}

theorem ended (halted : Halted size depth values answer) :
    (∃ value, answer.1 = .done value) ∨ ∃ error, answer.1 = .failed error := by
  cases halted with
  | done => exact .inl ⟨_, rfl⟩
  | failed => exact .inr ⟨_, rfl⟩

theorem loopFree (halted : Halted size depth values answer) :
    answer.2.heap.Stores Value.LoopFree := by
  have weaker (value : Value) (modest : value.Modest size) : value.LoopFree :=
    fun statement member => (modest statement member).loopFree
  cases halted with
  | done _ _ heap => exact heap.imp weaker
  | failed _ heap => exact heap.imp weaker

end Halted

namespace Run.Halts

variable {α β : Type} {values : α → Prop} {results : β → Prop}

theorem pure {value : α} (fine : values value) : Halts size depth values (Pure.pure value) :=
  fun _ level heap => .done fine level heap

theorem bind {run : Run α} {next : α → Run β} (first : run.Halts size depth values)
    (onwards : ∀ value, values value → (next value).Halts size depth results) :
    (run >>= next).Halts size depth results := by
  intro machine level heap
  have ended := first machine level heap
  change Halted size depth results (Run.bind run next machine)
  unfold Run.bind
  generalize run machine = answer at ended
  cases ended with
  | done fine level heap => exact onwards _ fine _ level heap
  | failed level heap => exact .failed level heap

theorem inScope {run : Run α} (scope : ScopeId) (body : run.Halts size depth values) :
    (run.inScope scope).Halts size depth values := by
  intro machine level heap
  have ended := body { machine with scope } level heap
  unfold Run.inScope
  generalize run { machine with scope } = answer at ended
  cases ended with
  | done fine level heap => exact .done fine level heap
  | failed level heap => exact .failed level heap

theorem fail (cause : RuntimeCause) (token : Token) : Halts size depth values (Run.fail cause token) :=
  fun _ level heap => .failed level heap

/-- Below the limit the body runs one call deeper, and at the limit not at all. -/
theorem nested {run : Run α} (paren : Token)
    (body : depth < depthLimit → run.Halts size (depth + 1) values) :
    (run.nested paren).Halts size depth values := by
  rintro machine rfl heap
  unfold Run.nested
  split
  · exact .failed rfl heap
  · next room =>
    have ended := body (Nat.not_le.1 room) { machine with depth := machine.depth + 1 } rfl heap
    generalize run { machine with depth := machine.depth + 1 } = answer at ended
    cases ended with
    | done fine level heap => exact .done fine (by simp [level]) heap
    | failed level heap => exact .failed (by simp [level]) heap

theorem ofExcept {answer : Except RuntimeError Value}
    (plain : ∀ value, answer = .ok value → value.IsPlain) :
    Halts size depth (Value.Modest size) (Run.ofExcept answer) := by
  intro machine level heap
  cases answer with
  | ok value => exact .done (plain value rfl).modest level heap
  | error error => exact .failed level heap

theorem lookup (name : Token) : Halts size depth (Value.Modest size) (Run.lookup name) := by
  intro machine level heap
  unfold Run.lookup Heap.get
  cases found : machine.heap.find? machine.scope name.lexeme with
  | none => exact .failed level heap
  | some value =>
    obtain ⟨binder, _, stored⟩ := Option.bind_eq_some_iff.1 found
    exact .done (heap.bound stored) level heap

theorem onHeap {change : Heap → ScopeId → Except RuntimeError Heap}
    (changes : ∀ heap scope after, change heap scope = .ok after → heap.Stores (Value.Modest size) →
      after.Stores (Value.Modest size)) :
    Halts size depth (fun _ => True) (Run.onHeap change) := by
  intro machine level heap
  unfold Run.onHeap
  cases made : change machine.heap machine.scope with
  | ok after => exact .done trivial level (changes _ _ after made heap)
  | error error => exact .failed level heap

theorem assign (name : Token) {value : Value} (given : value.Modest size) :
    Halts size depth (fun _ => True) (Run.assign name value) := by
  refine onHeap fun heap scope after assigned stores => ?_
  obtain ⟨binder, rfl⟩ := Heap.eq_of_assign assigned
  exact stores.modify _ fun _ kept => kept.update name.lexeme given

/-- Declares a name in a scope that may depend on the current one. -/
theorem defineAt (target : ScopeId → ScopeId) (name : Token) {value : Value} (given : value.Modest size) :
    Halts size depth (fun _ => True)
      (Run.onHeap fun heap scope => heap.define (target scope) name value) := by
  refine onHeap fun heap scope after declared stores => ?_
  obtain rfl := Heap.eq_of_define declared
  exact stores.modify _ fun _ kept => kept.insert name.lexeme given

theorem define (name : Token) {value : Value} (given : value.Modest size) :
    Halts size depth (fun _ => True) (Run.define name value) :=
  defineAt id name given

theorem currentScope : Halts size depth (fun _ => True) Run.currentScope :=
  fun _ level heap => .done trivial level heap

theorem newScope (enclosing : ScopeId) : Halts size depth (fun _ => True) (Run.newScope enclosing) :=
  fun _ level heap => .done trivial level (heap.addScope _)

theorem newCallable {function : Function} (modest : ∀ statement ∈ function.body, statement.Modest size) :
    Halts size depth (fun callable => (Value.callable callable).Modest size)
      (Run.newCallable (.declared function)) :=
  fun _ level heap => .done modest level heap

theorem callNative (builtin : Native) (arguments : List Value) (paren : Token) :
    Halts size depth (Value.Modest size) (TinyScript.callNative builtin arguments paren) := by
  intro machine level heap
  have plain {value : Value} (plain : value.IsPlain) : value.Modest size := plain.modest
  cases builtin with
  | clock | print | println => exact .done (plain trivial) level heap
  | inHex =>
    unfold TinyScript.callNative
    cases arguments.mapM Value.hexText? with
    | some texts => exact .done (plain trivial) level heap
    | none => exact .failed level heap

theorem collect {compute : Expr → Run Value} {expressions : List Expr}
    (each : ∀ expression ∈ expressions, (compute expression).Halts size depth (Value.Modest size)) :
    (Run.collect compute expressions).Halts size depth fun values =>
      ∀ value ∈ values, value.Modest size := by
  induction expressions with
  | nil => exact pure (by simp)
  | cons first others ih =>
    obtain ⟨head, tail⟩ := List.forall_mem_cons.1 each
    apply bind head
    intro value given
    apply bind (ih tail)
    intro values all
    exact pure (List.forall_mem_cons.2 ⟨given, all⟩)

theorem bindParameters (scope : ScopeId) {bindings : List (Token × Value)}
    (modest : ∀ binding ∈ bindings, binding.2.Modest size) :
    (Run.bindParameters scope bindings).Halts size depth fun _ => True := by
  induction bindings with
  | nil => exact pure trivial
  | cons binding others ih =>
    obtain ⟨head, tail⟩ := List.forall_mem_cons.1 modest
    apply bind (defineAt (fun _ => scope) binding.1 head)
    intro _ _
    exact ih tail

section Statements

variable {execute : Stmt → Run Flow}

theorem sequence {statements : List Stmt}
    (each : ∀ statement ∈ statements, (execute statement).Halts size depth (Flow.Modest size)) :
    (Run.sequence execute statements).Halts size depth (Flow.Modest size) := by
  induction statements with
  | nil => exact pure trivial
  | cons first others ih =>
    obtain ⟨head, tail⟩ := List.forall_mem_cons.1 each
    apply bind head
    intro flow given
    cases flow with
    | normal => exact ih tail
    | returned value => exact pure given

theorem callFunction {function : Function}
    (each : ∀ statement ∈ function.body, (execute statement).Halts size depth (Flow.Modest size))
    {arguments : List Value} (given : ∀ value ∈ arguments, value.Modest size) :
    (Run.callFunction execute function arguments).Halts size depth (Value.Modest size) := by
  have bindings : ∀ binding ∈ function.parameters.zip arguments, binding.2.Modest size :=
    fun binding member => given _ (List.of_mem_zip member).2
  apply bind (newScope function.closure)
  intro scope _
  apply bind (bindParameters scope bindings)
  intro _ _
  apply bind (inScope scope (sequence each))
  intro flow result
  cases flow with
  | normal => exact pure (Value.IsPlain.modest trivial)
  | returned value => exact pure result

theorem call {callee : Value}
    (each : depth < depthLimit → ∀ statement ∈ callee.body,
      (execute statement).Halts size (depth + 1) (Flow.Modest size))
    {arguments : List Value} (given : ∀ value ∈ arguments, value.Modest size) (paren : Token) :
    (Run.call execute callee arguments paren).Halts size depth (Value.Modest size) := by
  cases callee with
  | callable callable =>
    obtain ⟨identity, routine⟩ := callable
    have entered : (Run.nested paren (Run.routine execute arguments paren routine)).Halts size depth
        (Value.Modest size) := by
      refine nested paren fun below => ?_
      cases routine with
      | builtIn builtin => exact callNative builtin arguments paren
      | declared function => exact callFunction (each below) given
    rw [Run.call_callable]
    dsimp only
    cases routine.arity with
    | variadic => exact entered
    | fixed expected =>
      by_cases fits : arguments.length = expected
      · simpa only [fits, if_true] using entered
      · simpa only [fits, if_false] using fail _ paren
  | _ => exact fail .notCallable paren

end Statements

end Run.Halts

/-- The levels that calls may take from a call depth on, if bodies are of the given size at most. -/
def allowance (size depth : Nat) : Nat := (depthLimit - depth) * (size + 1)

theorem allowance_of_lt (below : depth < depthLimit) :
    allowance size depth = allowance size (depth + 1) + (size + 1) := by
  have room : depthLimit - depth = (depthLimit - (depth + 1)) + 1 := by omega
  rw [allowance, room, Nat.succ_mul]
  rfl

section Levels

variable {fuel : Nat}
variable (values : ∀ (depth : Nat) (expression : Expr),
  allowance size depth + sizeOf expression ≤ fuel →
    (evaluate fuel expression).Halts size depth (Value.Modest size))
variable (flows : ∀ (depth : Nat) (statement : Stmt), statement.Modest size →
  allowance size depth + sizeOf statement ≤ fuel →
    (execute fuel statement).Halts size depth (Flow.Modest size))
include values flows

theorem evaluate_succ_halts (expression : Expr)
    (enough : allowance size depth + sizeOf expression ≤ fuel + 1) :
    (evaluate (fuel + 1) expression).Halts size depth (Value.Modest size) := by
  -- A part is smaller than the whole, and the depth is the same.
  have part (inner : Expr) (smaller : sizeOf inner < sizeOf expression) :
      (evaluate fuel inner).Halts size depth (Value.Modest size) :=
    values depth inner (by omega)
  cases expression with
  | literal value => exact .pure (Value.isPlain_ofPrimitive value).modest
  | grouping inner => exact part inner (by simp)
  | unary operator right =>
    apply (part right (by simp)).bind
    intro right _
    exact .ofExcept fun _ => isPlain_of_applySign
  | binary left operator right =>
    apply (part left (by simp; omega)).bind
    intro left _
    apply (part right (by simp)).bind
    intro right _
    exact .ofExcept fun _ => isPlain_of_applyOperator
  | logical left operator right =>
    apply (part left (by simp; omega)).bind
    intro left given
    by_cases settled : settles operator left
    · simpa only [settled, if_true] using Run.Halts.pure given
    · simpa only [settled, Bool.false_eq_true, if_false] using part right (by simp)
  | var name => exact .lookup name
  | assign name value =>
    apply (part value (by simp)).bind
    intro value given
    apply (Run.Halts.assign name given).bind
    intro _ _
    exact .pure given
  | call callee paren arguments =>
    have listed : ∀ argument ∈ arguments,
        (evaluate fuel argument).Halts size depth (Value.Modest size) := by
      intro argument member
      have smaller := List.sizeOf_lt_of_mem member
      exact part argument (by simp; omega)
    have positive : 0 < sizeOf (Expr.call callee paren arguments) := by simp
    apply (part callee (by simp; omega)).bind
    intro callee function
    apply (Run.Halts.collect listed).bind
    intro arguments given
    refine .call (fun below statement member => ?_) given paren
    -- The body may be larger than the call, but there is room for one call less.
    have modest := function statement member
    have small := modest.small
    have room : allowance size depth = allowance size (depth + 1) + (size + 1) := allowance_of_lt below
    exact flows (depth + 1) statement modest (by omega)
  | increment name sign =>
    apply (Run.Halts.lookup name).bind
    intro value _
    cases value with
    | int value =>
      apply (Run.Halts.ofExcept fun _ => isPlain_of_stepped).bind
      intro value given
      apply (Run.Halts.assign name given).bind
      intro _ _
      exact .pure given
    | _ => exact .fail .operandMustBeInteger sign

theorem execute_succ_halts (statement : Stmt) (modest : statement.Modest size)
    (enough : allowance size depth + sizeOf statement ≤ fuel + 1) :
    (execute (fuel + 1) statement).Halts size depth (Flow.Modest size) := by
  have computed (inner : Expr) (smaller : sizeOf inner < sizeOf statement) :
      (evaluate fuel inner).Halts size depth (Value.Modest size) :=
    values depth inner (by omega)
  have part (inner : Stmt) (modest : inner.Modest size) (smaller : sizeOf inner < sizeOf statement) :
      (execute fuel inner).Halts size depth (Flow.Modest size) :=
    flows depth inner modest (by omega)
  cases statement with
  | expression value =>
    apply (computed value (by simp)).bind
    intro _ _
    exact .pure trivial
  | declare name initializer =>
    have declared (value : Value) (given : value.Modest size) :
        Run.Halts size depth (Flow.Modest size)
          (Run.define name value >>= fun _ => Pure.pure Flow.normal) := by
      apply (Run.Halts.define name given).bind
      intro _ _
      exact .pure trivial
    cases initializer with
    | some initializer => exact (computed initializer (by simp; omega)).bind declared
    | none =>
      have absent : (Pure.pure Value.nil : Run Value).Halts size depth (Value.Modest size) :=
        .pure (Value.IsPlain.modest trivial)
      exact absent.bind declared
  | block statements =>
    have inside : ∀ inner ∈ statements, (execute fuel inner).Halts size depth (Flow.Modest size) := by
      intro inner member
      have smaller := List.sizeOf_lt_of_mem member
      exact part inner (modest.block inner member) (by simp; omega)
    apply Run.Halts.currentScope.bind
    intro enclosing _
    apply (Run.Halts.newScope enclosing).bind
    intro scope _
    exact .inScope scope (.sequence inside)
  | branch condition consequent alternative =>
    obtain ⟨first, last⟩ := modest.branch
    apply (computed condition (by simp; omega)).bind
    intro value _
    by_cases truthy : value.isTruthy
    · simpa only [truthy, if_true] using part consequent first (by simp; omega)
    · simp only [truthy]
      cases alternative with
      | some alternative => exact part alternative (last alternative rfl) (by simp; omega)
      | none => exact .pure trivial
  | loop condition body => exact absurd modest Stmt.Modest.not_loop
  | function name parameters body =>
    apply Run.Halts.currentScope.bind
    intro closure _
    apply (Run.Halts.newCallable modest.function).bind
    intro callable given
    apply (Run.Halts.define name given).bind
    intro _ _
    exact .pure trivial
  | ret keyword value =>
    cases value with
    | some value =>
      apply (computed value (by simp; omega)).bind
      intro value given
      exact .pure given
    | none => exact .pure (Value.IsPlain.modest trivial)

end Levels

/-- With fuel for the room left for calls and for its own size, evaluation ends. -/
theorem evaluation_halts (size fuel : Nat) :
    (∀ (depth : Nat) (expression : Expr), allowance size depth + sizeOf expression ≤ fuel →
      (evaluate fuel expression).Halts size depth (Value.Modest size)) ∧
    (∀ (depth : Nat) (statement : Stmt), statement.Modest size →
      allowance size depth + sizeOf statement ≤ fuel →
        (execute fuel statement).Halts size depth (Flow.Modest size)) := by
  induction fuel with
  | zero =>
    refine ⟨fun depth expression none => ?_, fun depth statement _ none => ?_⟩
    · have positive : 0 < sizeOf expression := by cases expression <;> simp
      omega
    · have positive : 0 < sizeOf statement := by cases statement <;> simp
      omega
  | succ fuel ih =>
    obtain ⟨values, flows⟩ := ih
    exact ⟨fun _ => evaluate_succ_halts values flows, fun _ => execute_succ_halts values flows⟩

/-- On a machine whose functions have no loops, a program without loops ends. From some amount of fuel on
it always comes to the same end: all goes well or there is an error, and the machine it leaves is again
one whose functions have no loops. -/
theorem loop_free_programs_end (machine : Machine) (statements : List Stmt)
    (functions : machine.heap.Stores Value.LoopFree)
    (program : ∀ statement ∈ statements, statement.LoopFree) :
    ∃ (fuel : Nat) (outcome : Outcome RuntimeError Unit) (reached : Machine),
      (outcome = .done () ∨ ∃ error, outcome = .failed error) ∧
      reached.heap.Stores Value.LoopFree ∧
      ∀ more, fuel ≤ more → interpret more statements machine = (outcome, reached) := by
  obtain ⟨size, large, modest⟩ := functions.exists_modest (sizeOf statements)
  let fuel := allowance size machine.depth + size
  have each : ∀ statement ∈ statements,
      (execute fuel statement).Halts size machine.depth (Flow.Modest size) := by
    intro statement member
    have smaller := List.sizeOf_lt_of_mem member
    exact (evaluation_halts size fuel).2 machine.depth statement
      ⟨program statement member, by omega⟩ (by omega)
  have ends : (interpret fuel statements).Halts size machine.depth fun _ => True := by
    apply (Run.Halts.sequence each).bind
    intro _ _
    exact .pure trivial
  have halted := ends machine rfl modest
  refine ⟨fuel, (interpret fuel statements machine).1, (interpret fuel statements machine).2,
    halted.ended.imp_left fun ⟨_, ended⟩ => ended, halted.loopFree, fun more enough => ?_⟩
  apply (Run.ExtendedBy.interpret enough statements).same machine
  rcases halted.ended with ⟨value, ended⟩ | ⟨error, ended⟩ <;> simp [ended]

private def pointer (lexeme : String) : Token :=
  { kind := .identifier, lexeme, line := 1, span := ⟨0, 1⟩ }

/-- `f()` for a function given by its name. -/
private def callOf (name : String) : Expr := .call (.var (pointer name)) (pointer ")") []

/-- `fun twice() { fun other() { twice(); } other(); twice(); } twice();` -/
private def doubling : List Stmt :=
  [.function (pointer "twice") []
      [.function (pointer "other") [] [.expression (callOf "twice")], .expression (callOf "other"),
        .expression (callOf "twice")],
    .expression (callOf "twice")]

/-- A function that makes a new function in every call and calls both, without an end of its own. -/
theorem doubling_ends :
    (∀ statement ∈ doubling, statement.LoopFree) ∧
      ∃ (fuel : Nat) (outcome : Outcome RuntimeError Unit) (reached : Machine),
        (outcome = .done () ∨ ∃ error, outcome = .failed error) ∧
        reached.heap.Stores Value.LoopFree ∧
        ∀ more, fuel ≤ more → interpret more doubling (Machine.start fun _ => 0) = (outcome, reached) := by
  have free : ∀ statement ∈ doubling, statement.LoopFree := by decide
  have natives : (Machine.start fun _ => 0).heap.Stores Value.LoopFree :=
    Machine.start_stores _ fun _ _ _ member => by cases member
  exact ⟨free, loop_free_programs_end _ doubling natives free⟩

end TinyScript
