import TinyScript.Run.Error
import TinyScript.Value.Basic

/-! Operators on values. Integer arithmetic is exact: a result outside 64 bits is an error. -/
namespace TinyScript

/-- The 64-bit integer equal to `value`, if there is one. -/
def exactInt? (value : Int) : Option Int64 :=
  if -(largestInt : Int) - 1 ≤ value ∧ value ≤ largestInt then some (Int64.ofInt value) else none

/-- The exact value as a result of `operator`, or an overflow at it. -/
def exactValue (operator : Token) (value : Int) : Except RuntimeError Value :=
  match exactInt? value with
  | some value => .ok (.int value)
  | none => .error ⟨.integerOverflow, operator⟩

/-- A sign in front of a value: `!` negates its truth, any other sign its number. -/
def applySign (operator : Token) (right : Value) : Except RuntimeError Value :=
  if operator.kind = .bang then .ok (.bool !right.isTruthy)
  else
    match right with
    | .int value => exactValue operator (-value.toInt)
    | _ => .error ⟨.operandMustBeNumber, operator⟩

/-- An operator between two integers. Division goes toward zero. -/
def applyToInts (operator : Token) (left right : Int64) : Except RuntimeError Value :=
  match operator.kind with
  | .plus => exactValue operator (left.toInt + right.toInt)
  | .minus => exactValue operator (left.toInt - right.toInt)
  | .star => exactValue operator (left.toInt * right.toInt)
  | .slash =>
    if right.toInt = 0 then .error ⟨.divisionByZero, operator⟩
    else exactValue operator (left.toInt.tdiv right.toInt)
  | .less => .ok (.bool (left.toInt < right.toInt))
  | .lessEqual => .ok (.bool (left.toInt ≤ right.toInt))
  | .greater => .ok (.bool (right.toInt < left.toInt))
  | .greaterEqual => .ok (.bool (right.toInt ≤ left.toInt))
  | _ => .error ⟨.operandsMustBeNumbers, operator⟩

/-- The error for operands that do not fit the operator. -/
def operandError (operator : Token) : RuntimeError :=
  if operator.kind = .plus then ⟨.operandsMustBeNumbersOrStrings, operator⟩
  else ⟨.operandsMustBeNumbers, operator⟩

/-- An operator between two values. -/
def applyOperator (operator : Token) (left right : Value) : Except RuntimeError Value :=
  if operator.kind = .equal then .ok (.bool (left.same right))
  else if operator.kind = .notEqual then .ok (.bool !left.same right)
  else
    match left, right with
    | .int left, .int right => applyToInts operator left right
    | .string left, .string right =>
      if operator.kind = .plus then .ok (.string (left ++ right))
      else .error (operandError operator)
    | _, _ => .error (operandError operator)

/-- Whether the left operand of a logical operator settles the result. -/
def settles (operator : Token) (left : Value) : Bool :=
  if operator.kind = .keyword .orWord then left.isTruthy else !left.isTruthy

/-- The number after one step of `++`, or of `--` for any other sign. -/
def stepped (sign : Token) (value : Int64) : Except RuntimeError Value :=
  if sign.kind = .increment then exactValue sign (value.toInt + 1)
  else exactValue sign (value.toInt - 1)

end TinyScript
