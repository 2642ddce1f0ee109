import Mathlib.Algebra.Group.Int.Defs
import TinyScript.Run.Eval

/-! Integer arithmetic is exact or refused. What a tree of integers, names of integers and the four
operations stands for is said over all integers, with no limit to their size, and so is at which of its
operations that goes wrong first. Evaluation in 64 bits gives that value or stops at that operation. -/
namespace TinyScript

/-- Whether 64 bits hold the integer, its sign included. -/
def Fits64 (value : Int) : Prop := -2 ^ 63 ≤ value ∧ value < 2 ^ 63

instance (value : Int) : Decidable (Fits64 value) := inferInstanceAs (Decidable (_ ∧ _))

/-- The result of an operation on integers of any size. Division goes toward zero, and there is none by
zero. -/
def exactResult? (operation : TokenKind) (left right : Int) : Option Int :=
  match operation with
  | .plus => some (left + right)
  | .minus => some (left - right)
  | .star => some (left * right)
  | .slash => if right = 0 then none else some (left.tdiv right)
  | _ => none

/-- What is wrong with the exact result of an operation, if anything is. -/
def resultFault? (operator : Token) : Option Int → Option RuntimeError
  | none => some ⟨.divisionByZero, operator⟩
  | some result => if Fits64 result then none else some ⟨.integerOverflow, operator⟩

namespace Expr

/-- A tree of integers and of names that stand for integers, joined by signs and operations. -/
inductive Arithmetic (numbers : String → Option Int) : Expr → Prop where
  | literal (value : Int64) : Arithmetic numbers (.literal (.int value))
  | var {name : Token} {value : Int} (bound : numbers name.lexeme = some value) :
      Arithmetic numbers (.var name)
  | grouping {inner : Expr} (arithmetic : Arithmetic numbers inner) :
      Arithmetic numbers (.grouping inner)
  | negation {operator : Token} {right : Expr} (sign : operator.kind = .minus)
      (arithmetic : Arithmetic numbers right) : Arithmetic numbers (.unary operator right)
  | operation {left right : Expr} {operator : Token}
      (known : operator.kind ∈ [.plus, .minus, .star, .slash])
      (leftward : Arithmetic numbers left) (rightward : Arithmetic numbers right) :
      Arithmetic numbers (.binary left operator right)

variable (numbers : String → Option Int)

/-- The value of a tree of arithmetic over all integers; there is none behind a division by zero. -/
def exactValue? : Expr → Option Int
  | .literal (.int value) => some value.toInt
  | .var name => numbers name.lexeme
  | .grouping inner => exactValue? inner
  | .unary _ right => (exactValue? right).map (- ·)
  | .binary left operator right =>
    (exactValue? left).bind fun left => (exactValue? right).bind fun right =>
      exactResult? operator.kind left right
  | _ => none

/-- The signs and operations of a tree, in the order in which they are carried out: from left to right,
and operands before what joins them. -/
def operations : Expr → List Expr
  | .grouping inner => inner.operations
  | .unary operator right => right.operations ++ [.unary operator right]
  | .binary left operator right =>
    left.operations ++ right.operations ++ [.binary left operator right]
  | _ => []

/-- Why the sign or operation at the head of a tree cannot be carried out although its operands have
values: its exact result does not exist or does not fit. -/
def fault? : Expr → Option RuntimeError
  | .unary operator right =>
    (exactValue? numbers right).bind fun value => resultFault? operator (some (-value))
  | .binary left operator right =>
    (exactValue? numbers left).bind fun left => (exactValue? numbers right).bind fun right =>
      resultFault? operator (exactResult? operator.kind left right)
  | _ => none

end Expr

/-- The integers that names stand for on a machine. -/
def Machine.numbers (machine : Machine) (name : String) : Option Int :=
  match machine.heap.find? machine.scope name with
  | some (.int value) => some value.toInt
  | _ => none

theorem fits64_toInt (value : Int64) : Fits64 value.toInt :=
  ⟨value.le_toInt, value.toInt_lt⟩

/-- A result that fits is the result. -/
theorem exactValue_of_fits {result : Int} (fits : Fits64 result) (operator : Token) :
    ∃ value : Int64, value.toInt = result ∧ exactValue operator result = .ok (.int value) := by
  refine ⟨Int64.ofInt result, Int64.toInt_ofInt_of_le fits.1 fits.2, ?_⟩
  have inside : -(largestInt : Int) - 1 ≤ result ∧ result ≤ largestInt := by
    unfold Fits64 at fits
    unfold largestInt
    omega
  rw [exactValue, exactInt?, if_pos inside]

theorem exactValue_of_not_fits {result : Int} (large : ¬ Fits64 result) (operator : Token) :
    exactValue operator result = .error ⟨.integerOverflow, operator⟩ := by
  have outside : ¬ (-(largestInt : Int) - 1 ≤ result ∧ result ≤ largestInt) := by
    unfold Fits64 at large
    unfold largestInt
    omega
  rw [exactValue, exactInt?, if_neg outside]

/-- An exact result in 64 bits. -/
def checkedResult (operator : Token) : Option Int → Except RuntimeError Value
  | some result => exactValue operator result
  | none => .error ⟨.divisionByZero, operator⟩

/-- A checked result is the exact one, or it says what is wrong with that. -/
theorem checkedResult_cases (operator : Token) (result : Option Int) :
    (∃ value : Int64, result = some value.toInt ∧ resultFault? operator result = none ∧
      checkedResult operator result = .ok (.int value)) ∨
    ∃ error, resultFault? operator result = some error ∧
      checkedResult operator result = .error error := by
  cases result with
  | none => exact .inr ⟨_, rfl, rfl⟩
  | some result =>
    by_cases fits : Fits64 result
    · obtain ⟨value, rfl, given⟩ := exactValue_of_fits fits operator
      exact .inl ⟨value, rfl, if_pos fits, given⟩
    · exact .inr ⟨_, if_neg fits, exactValue_of_not_fits fits operator⟩

/-- An operation on two integers in 64 bits is the exact one, checked. -/
theorem applyOperator_ints {operator : Token} (known : operator.kind ∈ [.plus, .minus, .star, .slash])
    (left right : Int64) :
    applyOperator operator (.int left) (.int right) =
      checkedResult operator (exactResult? operator.kind left.toInt right.toInt) := by
  simp only [List.mem_cons, List.not_mem_nil, or_false] at known
  rcases known with kind | kind | kind | kind
  · simp [applyOperator, applyToInts, exactResult?, checkedResult, kind]
  · simp [applyOperator, applyToInts, exactResult?, checkedResult, kind]
  · simp [applyOperator, applyToInts, exactResult?, checkedResult, kind]
  · by_cases zero : right.toInt = 0
    · simp [applyOperator, applyToInts, exactResult?, checkedResult, kind, zero]
    · simp [applyOperator, applyToInts, exactResult?, checkedResult, kind, zero]

/-- The computation comes to this outcome if it is given the fuel it needs, and leaves the machine as it
is in any case. -/
def Machine.Settles {α : Type} (machine : Machine) (run : (fuel : Nat) → Run α)
    (outcome : Outcome RuntimeError α) : Prop :=
  ∃ needed, ∀ fuel, run fuel machine = (if needed ≤ fuel then outcome else .exhausted, machine)

/-- What evaluation of an expression comes to. -/
abbrev Machine.Finds (machine : Machine) (expression : Expr) (outcome : Outcome RuntimeError Value) :
    Prop :=
  machine.Settles (fun fuel => evaluate fuel expression) outcome

namespace Machine.Settles

variable {α β : Type} {machine : Machine}

/-- Whatever ends has come to that outcome. -/
theorem outcome_eq {run : Nat → Run α} {outcome : Outcome RuntimeError α}
    (settles : machine.Settles run outcome) {fuel : Nat}
    (ended : (run fuel machine).1 ≠ .exhausted) : (run fuel machine).1 = outcome := by
  obtain ⟨needed, settles⟩ := settles
  rw [settles] at ended ⊢
  by_cases enough : needed ≤ fuel
  · exact if_pos enough
  · exact absurd (if_neg enough) ended

theorem ofExcept (answer : Except RuntimeError α) :
    machine.Settles (fun _ => Run.ofExcept answer) (Run.ofExcept answer machine).1 := by
  refine ⟨0, fun fuel => ?_⟩
  cases answer <;> rfl

theorem bind {first : Nat → Run α} {next : Nat → α → Run β} {value : α}
    {outcome : Outcome RuntimeError β} (found : machine.Settles first (.done value))
    (onwards : machine.Settles (fun fuel => next fuel value) outcome) :
    machine.Settles (fun fuel => Run.bind (first fuel) (next fuel)) outcome := by
  obtain ⟨needed, found⟩ := found
  obtain ⟨further, onwards⟩ := onwards
  refine ⟨max needed further, fun fuel => ?_⟩
  simp only [Run.bind, found fuel]
  by_cases enough : needed ≤ fuel
  · simpa only [enough, if_true, Nat.max_le, true_and] using onwards fuel
  · simp only [enough, if_false, Nat.max_le, false_and]

theorem bind_failed {first : Nat → Run α} {next : Nat → α → Run β} {error : RuntimeError}
    (failed : machine.Settles first (.failed error)) :
    machine.Settles (fun fuel => Run.bind (first fuel) (next fuel)) (.failed error) := by
  obtain ⟨needed, failed⟩ := failed
  refine ⟨needed, fun fuel => ?_⟩
  simp only [Run.bind, failed fuel]
  by_cases enough : needed ≤ fuel
  · simp only [if_pos enough]
  · simp only [if_neg enough]

end Machine.Settles

namespace Machine.Finds

variable {machine : Machine} {left right : Expr} {operator : Token}

/-- An expression takes one level more than what it is put together from. -/
theorem of_succ {expression : Expr} {outcome : Outcome RuntimeError Value}
    (settles : machine.Settles (fun fuel => evaluate (fuel + 1) expression) outcome) :
    machine.Finds expression outcome := by
  obtain ⟨needed, settles⟩ := settles
  refine ⟨needed + 1, fun fuel => ?_⟩
  cases fuel with
  | zero => rfl
  | succ fuel => simp only [settles, Nat.add_le_add_iff_right]

theorem literal (value : Primitive) : machine.Finds (.literal value) (.done (.ofPrimitive value)) :=
  of_succ ⟨0, fun _ => rfl⟩

theorem var {name : Token} {value : Value}
    (bound : machine.heap.find? machine.scope name.lexeme = some value) :
    machine.Finds (.var name) (.done value) := by
  refine of_succ ⟨0, fun fuel => ?_⟩
  show Run.lookup name machine = (.done value, machine)
  rw [Run.lookup, Heap.get, bound]

theorem grouping {inner : Expr} {outcome : Outcome RuntimeError Value}
    (found : machine.Finds inner outcome) : machine.Finds (.grouping inner) outcome :=
  of_succ found

theorem unary {value : Value} (found : machine.Finds right (.done value)) :
    machine.Finds (.unary operator right) (Run.ofExcept (applySign operator value) machine).1 :=
  of_succ (Settles.bind found (.ofExcept _))

theorem unary_failed {error : RuntimeError} (found : machine.Finds right (.failed error)) :
    machine.Finds (.unary operator right) (.failed error) :=
  of_succ (Settles.bind_failed found)

theorem binary {first second : Value} (leftward : machine.Finds left (.done first))
    (rightward : machine.Finds right (.done second)) :
    machine.Finds (.binary left operator right)
      (Run.ofExcept (applyOperator operator first second) machine).1 :=
  of_succ (Settles.bind leftward (Settles.bind rightward (.ofExcept _)))

theorem binary_left {error : RuntimeError} (leftward : machine.Finds left (.failed error)) :
    machine.Finds (.binary left operator right) (.failed error) :=
  of_succ (Settles.bind_failed leftward)

theorem binary_right {first : Value} {error : RuntimeError}
    (leftward : machine.Finds left (.done first)) (rightward : machine.Finds right (.failed error)) :
    machine.Finds (.binary left operator right) (.failed error) :=
  of_succ (Settles.bind leftward (Settles.bind_failed rightward))

end Machine.Finds

/-- A tree is worth an integer: the machine finds it, it is the exact one, and nothing went wrong at any
operation. -/
structure Expr.Worth (machine : Machine) (tree : Expr) (value : Int64) : Prop where
  found : machine.Finds tree (.done (.int value))
  exact : tree.exactValue? machine.numbers = some value.toInt
  clean : ∀ node ∈ tree.operations, node.fault? machine.numbers = none

/-- A tree is refused: the machine fails with what is wrong at the first of its operations at which
something is. -/
structure Expr.Refused (machine : Machine) (tree : Expr) (error : RuntimeError) : Prop where
  found : machine.Finds tree (.failed error)
  first : ∃ before node after, tree.operations = before ++ node :: after ∧
    (∀ earlier ∈ before, earlier.fault? machine.numbers = none) ∧
    node.fault? machine.numbers = some error

namespace Expr

variable {machine : Machine} {left right tree : Expr} {operator : Token}

/-- The operation at the head of a tree decides once its operands are worth something. -/
theorem settled_at_head {before : List Expr} (operator : Token) (result : Option Int)
    (order : tree.operations = before ++ [tree])
    (clean : ∀ node ∈ before, node.fault? machine.numbers = none)
    (fault : tree.fault? machine.numbers = resultFault? operator result)
    (exact : tree.exactValue? machine.numbers = result)
    (found : machine.Finds tree (Run.ofExcept (checkedResult operator result) machine).1) :
    (∃ value, tree.Worth machine value) ∨ ∃ error, tree.Refused machine error := by
  rcases checkedResult_cases operator result with ⟨value, same, right, given⟩ | ⟨error, wrong, given⟩
  · rw [given] at found
    refine .inl ⟨value, found, exact.trans same, ?_⟩
    rw [order]
    exact List.forall_mem_append.2 ⟨clean, List.forall_mem_singleton.2 (fault.trans right)⟩
  · rw [given] at found
    exact .inr ⟨error, found, before, tree, [], order, clean, fault.trans wrong⟩

theorem negation_settled (sign : operator.kind = .minus) {value : Int64}
    (worth : right.Worth machine value) :
    (∃ value, (unary operator right).Worth machine value) ∨
      ∃ error, (unary operator right).Refused machine error := by
  have negated : applySign operator (.int value) = checkedResult operator (some (-value.toInt)) := by
    simp [applySign, checkedResult, sign]
  refine settled_at_head operator (some (-value.toInt)) rfl worth.clean ?_ ?_ ?_
  · simp [fault?, worth.exact]
  · simp [exactValue?, worth.exact]
  · rw [← negated]
    exact worth.found.unary

theorem operation_settled (known : operator.kind ∈ [.plus, .minus, .star, .slash])
    {first second : Int64} (leftward : left.Worth machine first)
    (rightward : right.Worth machine second) :
    (∃ value, (binary left operator right).Worth machine value) ∨
      ∃ error, (binary left operator right).Refused machine error := by
  refine settled_at_head operator (exactResult? operator.kind first.toInt second.toInt) rfl ?_ ?_ ?_ ?_
  · exact List.forall_mem_append.2 ⟨leftward.clean, rightward.clean⟩
  · simp [fault?, leftward.exact, rightward.exact]
  · simp [exactValue?, leftward.exact, rightward.exact]
  · rw [← applyOperator_ints known]
    exact leftward.found.binary rightward.found

namespace Refused

variable {error : RuntimeError}

theorem unary (refused : right.Refused machine error) :
    (unary operator right).Refused machine error := by
  obtain ⟨found, before, node, after, order, clean, fault⟩ := refused
  refine ⟨found.unary_failed, before, node, after ++ [.unary operator right], ?_, clean, fault⟩
  simp [operations, order]

theorem binary_left (refused : left.Refused machine error) :
    (binary left operator right).Refused machine error := by
  obtain ⟨found, before, node, after, order, clean, fault⟩ := refused
  refine ⟨found.binary_left, before, node,
    after ++ (right.operations ++ [.binary left operator right]), ?_, clean, fault⟩
  simp [operations, order]

theorem binary_right {value : Int64} (leftward : left.Worth machine value)
    (refused : right.Refused machine error) : (binary left operator right).Refused machine error := by
  obtain ⟨found, before, node, after, order, clean, fault⟩ := refused
  refine ⟨leftward.found.binary_right found, left.operations ++ before, node,
    after ++ [.binary left operator right], ?_, List.forall_mem_append.2 ⟨leftward.clean, clean⟩, fault⟩
  simp [operations, order]

end Refused

end Expr

/-- Integer arithmetic is exact or refused, on every machine and for every tree of integers, names of
integers, signs and operations: either it evaluates to the integer that it stands for over all integers,
which then fits into 64 bits, or it fails at the first operation, in the order in which they are carried
out, whose operands have values but whose exact result does not exist or does not fit. Either way the
machine stays as it is. -/
theorem arithmetic_exact_or_refused {machine : Machine} {tree : Expr}
    (arithmetic : tree.Arithmetic machine.numbers) :
    (∃ value : Int64, tree.Worth machine value ∧ Fits64 value.toInt) ∨
      ∃ error, tree.Refused machine error := by
  suffices settled : (∃ value, tree.Worth machine value) ∨ ∃ error, tree.Refused machine error from
    settled.imp_left fun ⟨value, worth⟩ => ⟨value, worth, fits64_toInt value⟩
  induction arithmetic with
  | literal value => exact .inl ⟨value, .literal _, rfl, by simp [Expr.operations]⟩
  | @var name value bound =>
    have known := bound
    unfold Machine.numbers at bound
    split at bound
    · next number found =>
      cases bound
      exact .inl ⟨number, .var found, known, by simp [Expr.operations]⟩
    · cases bound
  | grouping _ ih =>
    rcases ih with ⟨value, worth⟩ | ⟨error, refused⟩
    · exact .inl ⟨value, worth.found.grouping, worth.exact, worth.clean⟩
    · exact .inr ⟨error, refused.found.grouping, refused.first⟩
  | negation sign _ ih =>
    rcases ih with ⟨value, worth⟩ | ⟨error, refused⟩
    · exact Expr.negation_settled sign worth
    · exact .inr ⟨error, refused.unary⟩
  | operation known _ _ leftward rightward =>
    rcases leftward with ⟨first, leftWorth⟩ | ⟨error, refused⟩
    · rcases rightward with ⟨second, rightWorth⟩ | ⟨error, refused⟩
      · exact Expr.operation_settled known leftWorth rightWorth
      · exact .inr ⟨error, .binary_right leftWorth refused⟩
    · exact .inr ⟨error, refused.binary_left⟩

private def spelled (kind : TokenKind) (lexeme : String) : Token :=
  { kind, lexeme, line := 1, span := ⟨0, 1⟩ }

/-- A machine on which `low` is the lowest integer. -/
private def lowest : Machine :=
  (execute 2 (.declare (spelled .identifier "low") (some (.literal (.int Int64.minValue))))
    (Machine.start fun _ => 0)).2

private def firstSlash : Token := { spelled .slash "/" with span := ⟨5, 6⟩ }

/-- `(low / -1) * 2 - 1 / 0` -/
private def brim : Expr :=
  .binary
    (.binary
      (.grouping (.binary (.var (spelled .identifier "low")) firstSlash
        (.unary (spelled .minus "-") (.literal (.int 1)))))
      (spelled .star "*") (.literal (.int 2)))
    (spelled .minus "-")
    (.binary (.literal (.int 1)) (spelled .slash "/") (.literal (.int 0)))

/-- The quotient of the lowest integer by minus one does not fit, and that comes before the product with
it and before the division by zero. -/
theorem brim_refused :
    brim.Arithmetic lowest.numbers ∧ brim.Refused lowest ⟨.integerOverflow, firstSlash⟩ := by
  have low : lowest.numbers "low" = some (-2 ^ 63) := by decide +kernel
  have arithmetic : brim.Arithmetic lowest.numbers :=
    .operation (by decide)
      (.operation (by decide)
        (.grouping (.operation (by decide) (.var low) (.negation rfl (.literal 1)))) (.literal 2))
      (.operation (by decide) (.literal 1) (.literal 0))
  have failed : (evaluate 9 brim lowest).1 = .failed ⟨.integerOverflow, firstSlash⟩ := by rfl
  have ended : (evaluate 9 brim lowest).1 ≠ .exhausted := by simp [failed]
  refine ⟨arithmetic, ?_⟩
  rcases arithmetic_exact_or_refused arithmetic with ⟨value, worth, _⟩ | ⟨error, refused⟩
  · cases failed.symm.trans (worth.found.outcome_eq ended)
  · cases failed.symm.trans (refused.found.outcome_eq ended)
    exact refused

end TinyScript
