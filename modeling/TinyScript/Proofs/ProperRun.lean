import TinyScript.Proofs.ProperCode

/-! Runs of proper code. Where all functions on the heap are proper, running proper code keeps them so.
A run fails only at tokens of the given sort, and it lacks numbers only at the operator it has applied
last, to operands that are not both integers. -/
namespace TinyScript

variable {own : Token → Prop}

/-- The operator of a well-shaped node fails on its operands, which are not both integers. -/
structure Application.Misfits (application : Application) (error : RuntimeError) : Prop where
  node : (Expr.binary application.first application.operator application.second).wellShaped = true
  place : error.token = application.operator
  fails : application.result = .error error
  operands : ¬ ∃ left right, application.left = .int left ∧ application.right = .int right

/-- The error is at a token of the given sort. If numbers were missing, it is the operator applied last
that misfits its operands. -/
structure Fault (own : Token → Prop) (applied : List Application) (error : RuntimeError) : Prop where
  place : own error.token
  numbers : error.cause = .operandsMustBeNumbers →
    ∃ application, applied.getLast? = some application ∧ application.Misfits error

theorem Fault.append {later : List Application} {error : RuntimeError} (fault : Fault own later error)
    (earlier : List Application) : Fault own (earlier ++ later) error := by
  refine ⟨fault.place, fun cause => ?_⟩
  obtain ⟨application, last, misfits⟩ := fault.numbers cause
  exact ⟨application, by rw [List.getLast?_append, last, Option.some_or], misfits⟩

section Operators

variable {operator : Token} {error : RuntimeError}

theorem eq_of_exactValue {value : Int} (failed : exactValue operator value = .error error) :
    error = ⟨.integerOverflow, operator⟩ := by
  unfold exactValue at failed
  split at failed <;> cases failed
  rfl

theorem error_of_applySign {right : Value} (failed : applySign operator right = .error error) :
    error.token = operator ∧ error.cause ≠ .operandsMustBeNumbers := by
  unfold applySign at failed
  split at failed
  · cases failed
  · split at failed
    · obtain rfl := eq_of_exactValue failed
      exact ⟨rfl, by simp⟩
    · cases failed
      exact ⟨rfl, by simp⟩

theorem error_of_stepped {value : Int64} (failed : stepped operator value = .error error) :
    error.token = operator ∧ error.cause ≠ .operandsMustBeNumbers := by
  unfold stepped at failed
  split at failed
  all_goals
    obtain rfl := eq_of_exactValue failed
    exact ⟨rfl, by simp⟩

theorem error_of_applyToInts {left right : Int64}
    (failed : applyToInts operator left right = .error error) :
    error.token = operator ∧ (error.cause = .operandsMustBeNumbers →
      operator.kind.isBinaryOperator = true → operator.kind = .equal ∨ operator.kind = .notEqual) := by
  unfold applyToInts at failed
  split at failed
  case h_1 | h_2 | h_3 =>
    rw [eq_of_exactValue failed]
    simp
  case h_4 =>
    split at failed
    · cases failed
      simp
    · rw [eq_of_exactValue failed]
      simp
  case h_5 | h_6 | h_7 | h_8 => cases failed
  case h_9 =>
    cases failed
    refine ⟨rfl, fun _ known => ?_⟩
    unfold TokenKind.isBinaryOperator at known
    split at known <;> simp_all

/-- Errors stand at the operator, and one of the grammar never lacks numbers between two integers. -/
theorem error_of_applyOperator {left right : Value}
    (failed : applyOperator operator left right = .error error) :
    error.token = operator ∧ (error.cause = .operandsMustBeNumbers →
      operator.kind.isBinaryOperator = true →
        ¬ ∃ first second, left = .int first ∧ right = .int second) := by
  have misfit : (operandError operator).token = operator := by
    unfold operandError
    split <;> rfl
  unfold applyOperator at failed
  split at failed
  · cases failed
  next notEqual =>
  split at failed
  · cases failed
  next notDifferent =>
  split at failed
  · obtain ⟨token, numbers⟩ := error_of_applyToInts failed
    refine ⟨token, fun cause known => ?_⟩
    rcases numbers cause known with isEqual | isDifferent
    · exact absurd isEqual notEqual
    · exact absurd isDifferent notDifferent
  · split at failed <;> cases failed
    exact ⟨misfit, by simp⟩
  · next notInts _ =>
    cases failed
    refine ⟨misfit, fun _ _ => ?_⟩
    rintro ⟨first, second, rfl, rfl⟩
    exact notInts first second rfl rfl

end Operators

/-- The outcome is a value of one sort or an error of another, if it is either. -/
def Outcome.Meets {ε α : Type} (values : α → Prop) (errors : ε → Prop) : Outcome ε α → Prop
  | .done value => values value
  | .failed error => errors error
  | .exhausted => True

/-- The last machine on record has a proper heap, and the outcome is a value of the given sort or a
fault. -/
structure Kept (own : Token → Prop) {α : Type} (values : α → Prop) (recorded : Record α) : Prop where
  heap : recorded.ending.2.heap.Proper own
  outcome : recorded.ending.1.Meets values (Fault own recorded.applied)

/-- The computation keeps proper heaps proper, gives values of the given sort, and fails with faults. -/
def Traced.Behaves (own : Token → Prop) {α : Type} (values : α → Prop) (traced : Traced α) : Prop :=
  ∀ machine, machine.heap.Proper own → Kept own values (traced machine)

/-- How a single step may end. -/
inductive Ended (own : Token → Prop) {α : Type} (values : α → Prop) (machine : Machine) :
    Outcome RuntimeError α × Machine → Prop where
  | done {value : α} {reached : Machine} (fine : values value) (proper : reached.heap.Proper own) :
      Ended own values machine (.done value, reached)
  | failed {error : RuntimeError} (place : own error.token)
      (other : error.cause ≠ .operandsMustBeNumbers) : Ended own values machine (.failed error, machine)
  | exhausted : Ended own values machine (.exhausted, machine)

namespace Traced.Behaves

variable {α β : Type} {values : α → Prop} {results : β → Prop}

theorem pure {value : α} (fine : values value) : Behaves own values (Pure.pure value) :=
  fun _ proper => ⟨proper, fine⟩

theorem step {run : Run α}
    (each : ∀ machine, machine.heap.Proper own → Ended own values machine (run machine)) :
    Behaves own values (Traced.step run) := by
  intro machine proper
  have ended := each machine proper
  unfold Traced.step
  generalize run machine = answer at ended
  cases ended with
  | done fine kept => exact ⟨kept, fine⟩
  | failed place other => exact ⟨proper, place, fun cause => absurd cause other⟩
  | exhausted => exact ⟨proper, trivial⟩

theorem bind {first : Traced α} {next : α → Traced β} (behaves : Behaves own values first)
    (onwards : ∀ value, values value → Behaves own results (next value)) :
    Behaves own results (first >>= next) := by
  intro machine proper
  obtain ⟨heap, outcome⟩ := behaves machine proper
  change Kept own results (Traced.bind first next machine)
  unfold Traced.bind
  rcases recorded : first machine with ⟨⟨ending, reached⟩, passed, applied⟩
  rw [recorded] at heap outcome
  cases ending with
  | failed error => exact ⟨heap, outcome⟩
  | exhausted => exact ⟨heap, trivial⟩
  | done value =>
    obtain ⟨heapLater, outcomeLater⟩ := onwards value outcome reached heap
    refine ⟨heapLater, ?_⟩
    dsimp only
    generalize (next value reached).ending.1 = last at outcomeLater ⊢
    cases last with
    | done result => exact outcomeLater
    | failed error => exact Fault.append outcomeLater applied
    | exhausted => trivial

theorem inScope {body : Traced α} (scope : ScopeId) (behaves : Behaves own values body) :
    Behaves own values (body.inScope scope) := by
  intro machine proper
  obtain ⟨heap, outcome⟩ := behaves { machine with scope } proper
  exact ⟨heap, outcome⟩

theorem fail {cause : RuntimeCause} {token : Token} (place : own token)
    (other : cause ≠ .operandsMustBeNumbers) :
    Behaves own values (Traced.step (Run.fail cause token)) :=
  step fun _ _ => .failed place other

theorem nested {body : Traced α} {paren : Token} (place : own paren)
    (behaves : Behaves own values body) : Behaves own values (body.nested paren) := by
  intro machine proper
  unfold Traced.nested
  by_cases full : depthLimit ≤ machine.depth
  · rw [if_pos full]
    exact fail place (by simp) machine proper
  · rw [if_neg full]
    obtain ⟨heap, outcome⟩ := behaves { machine with depth := machine.depth + 1 } proper
    exact ⟨heap, outcome⟩

theorem ofExcept {answer : Except RuntimeError Value}
    (plain : ∀ value, answer = .ok value → value.IsPlain)
    (errors : ∀ error, answer = .error error → own error.token ∧ error.cause ≠ .operandsMustBeNumbers) :
    Behaves own (Value.Proper own) (Traced.step (Run.ofExcept answer)) := by
  refine step fun machine proper => ?_
  cases answer with
  | ok value => exact .done (plain value rfl).proper proper
  | error error => exact .failed (errors error rfl).1 (errors error rfl).2

theorem lookup {name : Token} (place : own name) :
    Behaves own (Value.Proper own) (Traced.step (Run.lookup name)) := by
  refine step fun machine proper => ?_
  unfold Run.lookup Heap.get
  cases found : machine.heap.find? machine.scope name.lexeme with
  | none => exact .failed place (by simp [Heap.undefinedName])
  | some value =>
    obtain ⟨binder, _, stored⟩ := Option.bind_eq_some_iff.1 found
    exact .done (proper.bound stored) proper

theorem onHeap {change : Heap → ScopeId → Except RuntimeError Heap}
    (changes : ∀ heap scope after, change heap scope = .ok after → heap.Proper own → after.Proper own)
    (errors : ∀ heap scope error, change heap scope = .error error →
      own error.token ∧ error.cause ≠ .operandsMustBeNumbers) :
    Behaves own (fun _ => True) (Traced.step (Run.onHeap change)) := by
  refine step fun machine proper => ?_
  unfold Run.onHeap
  cases ran : change machine.heap machine.scope with
  | ok after => exact .done trivial (changes _ _ after ran proper)
  | error error => exact .failed (errors _ _ error ran).1 (errors _ _ error ran).2

section Names

variable {name : Token} (place : own name) {value : Value} (given : value.Proper own)
include place given

theorem assign : Behaves own (fun _ => True) (Traced.step (Run.assign name value)) := by
  refine onHeap ?_ ?_
  · intro heap scope after assigned proper
    obtain ⟨binder, rfl⟩ := Heap.eq_of_assign assigned
    exact proper.modify _ fun _ fine => fine.update name.lexeme given
  · intro heap scope error failed
    obtain rfl := Heap.error_of_assign failed
    exact ⟨place, by simp [Heap.undefinedName]⟩

/-- Declares a name in a scope that may depend on the current one. -/
theorem defineAt (target : ScopeId → ScopeId) : Behaves own (fun _ => True)
    (Traced.step (Run.onHeap fun heap scope => heap.define (target scope) name value)) := by
  refine onHeap ?_ ?_
  · intro heap scope after declared proper
    obtain rfl := Heap.eq_of_define declared
    exact proper.modify _ fun _ fine => fine.insert name.lexeme given
  · intro heap scope error failed
    obtain rfl := Heap.error_of_define failed
    exact ⟨place, by simp⟩

theorem define : Behaves own (fun _ => True) (Traced.step (Run.define name value)) :=
  defineAt place given id

theorem defineIn (scope : ScopeId) :
    Behaves own (fun _ => True) (Traced.step (Run.defineIn scope name value)) :=
  defineAt place given fun _ => scope

end Names

theorem sign {operator : Token} (place : own operator) (value : Value) :
    Behaves own (Value.Proper own) (Traced.step (Run.ofExcept (applySign operator value))) := by
  refine ofExcept (fun _ => isPlain_of_applySign) fun error failed => ?_
  obtain ⟨rfl, other⟩ := error_of_applySign failed
  exact ⟨place, other⟩

theorem counted {sign : Token} (place : own sign) (value : Int64) :
    Behaves own (Value.Proper own) (Traced.step (Run.ofExcept (stepped sign value))) := by
  refine ofExcept (fun _ => isPlain_of_stepped) fun error failed => ?_
  obtain ⟨rfl, other⟩ := error_of_stepped failed
  exact ⟨place, other⟩

/-- Here numbers may be missing, and the record shows it. -/
theorem apply {first second : Expr} {operator : Token}
    (proper : (Expr.binary first operator second).Proper own) (left right : Value) :
    Behaves own (Value.Proper own) (Traced.apply ⟨first, operator, second, left, right⟩) := by
  intro machine kept
  unfold Traced.apply Traced.step Application.result
  dsimp only
  cases applied : applyOperator operator left right with
  | ok value => exact ⟨kept, (isPlain_of_applyOperator applied).proper⟩
  | error error =>
    obtain ⟨rfl, numbers⟩ := error_of_applyOperator applied
    obtain ⟨_, place, _⟩ := proper.binary
    have known : error.token.kind.isBinaryOperator = true := by
      have shape := proper.shape
      simp only [Expr.wellShaped, Bool.and_eq_true] at shape
      exact shape.1.1.1.1
    exact ⟨kept, place, fun cause => ⟨_, rfl, proper.shape, rfl, applied, numbers cause known⟩⟩

theorem callNative (builtin : Native) (arguments : List Value) {paren : Token} (place : own paren) :
    Behaves own (Value.Proper own) (Traced.step (TinyScript.callNative builtin arguments paren)) := by
  refine step fun machine proper => ?_
  cases builtin with
  | clock | print | println => exact .done trivial proper
  | inHex =>
    unfold TinyScript.callNative
    cases arguments.mapM Value.hexText? with
    | some texts => exact .done trivial proper
    | none => exact .failed place (by simp)

end Traced.Behaves

/-- Proper code, whose errors stand at tokens of the given sort. -/
def Code.proper (own : Token → Prop) : Code where
  token := own
  expression := Expr.Proper own
  statement := Stmt.Proper own
  grouping proper := proper.grouping
  unary proper := proper.unary
  binary proper := ⟨proper.binary.1, proper.binary.2.2⟩
  logical proper := proper.logical
  var proper := proper.var
  assign proper := proper.assign
  call proper := proper.call
  increment proper := proper.increment
  value proper := proper.expression
  declare proper := proper.declare
  block proper := proper.block
  branch proper := proper.branch
  loop proper := proper.loop
  function proper := proper.function
  ret proper := proper.ret

/-- Proper code behaves, whatever has been run before. -/
def Conduct.proper (own : Token → Prop) : Conduct (.proper own) where
  World := Unit
  later := anything
  admits _ := Value.Proper own
  enters := anything
  opened := anything
  declares _ := True
  holds values _ traced := traced.Behaves own (values ())
  admits_later _ given := given
  opened_later _ _ := trivial
  declares_later _ _ := trivial
  primitive value := (Value.isPlain_ofPrimitive value).proper
  closure given := ⟨trivial, given⟩
  pure fine := .pure fine
  bind behaves onwards := behaves.bind fun value given => onwards () value trivial given
  inScope _ behaves := .inScope _ (behaves () trivial)
  nested place behaves := .nested place (behaves () fun _ => id)
  exhausted := .step fun _ _ => .exhausted
  fail place other := .fail place other
  sign place := .sign place _
  counted place := .counted place _
  apply proper := .apply proper _ _
  lookup place := .lookup place
  assign place given := .assign place given
  define place _ given := .define place given
  defineIn place _ given := .defineIn place given _
  currentScope := .step fun _ proper => .done trivial proper
  newScope _ := .step fun _ proper => .done trivial (proper.addScope _)
  newCallable _ declared := .step fun _ kept => .done declared kept
  native place := .callNative _ _ place

/-- A proper program leaves a proper heap, and if it fails, the error is a fault of its run. -/
theorem interpret_proper (fuel : Nat) {statements : List Stmt}
    (proper : ∀ statement ∈ statements, statement.Proper own) {machine : Machine}
    (kept : machine.heap.Proper own) :
    (interpret fuel statements machine).2.heap.Proper own ∧
      ∀ error, (interpret fuel statements machine).1 = .failed error →
        Fault own ((Traced.interpret fuel statements).applied machine) error := by
  have same : (Traced.interpret fuel statements machine).ending = interpret fuel statements machine :=
    congrFun (Traced.compositional_result.interpret fuel statements) machine
  have behaves : (Traced.interpret fuel statements).Behaves own (fun _ => True) :=
    (Conduct.proper own).interpret fuel proper () trivial
  obtain ⟨heap, outcome⟩ := behaves machine kept
  rw [same] at heap outcome
  refine ⟨heap, fun error failed => ?_⟩
  rw [failed] at outcome
  exact outcome

end TinyScript
