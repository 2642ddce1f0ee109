import TinyScript.Syntax.Basic
import TinyScript.Syntax.Step

/-! The grammar of expressions, one rule for each degree of binding:

    expression → IDENT "=" expression | or
    or → and { "or" and }                  and → equality { "and" equality }
    equality → comparison { ( "!=" | "==" ) comparison }
    comparison → term { ( ">" | ">=" | "<" | "<=" ) term }
    term → factor { ( "-" | "+" ) factor } factor → unary { ( "/" | "*" ) unary }
    unary → ( "!" | "-" ) unary | call     call → increment { "(" [ arguments ] ")" }
    increment → primary [ "++" | "--" ]
    primary → "true" | "false" | "nil" | NUMBER | STRING | BYTES | IDENT | "(" expression ")"
-/
namespace TinyScript

/-- Degrees of binding of the operators with two operands, loosest first. -/
inductive Level where
  | disjunction | conjunction | equality | comparison | term | factor
deriving DecidableEq

namespace Level

/-- The next tighter level; the operands of the tightest are unary expressions. -/
def tighter? : Level → Option Level
  | disjunction => some conjunction
  | conjunction => some equality
  | equality => some comparison
  | comparison => some term
  | term => some factor
  | factor => none

/-- Whether an operator joins operands of this level. -/
def joins : Level → TokenKind → Bool
  | disjunction, .keyword .orWord => true
  | conjunction, .keyword .andWord => true
  | equality, .notEqual | equality, .equal => true
  | comparison, .greater | comparison, .greaterEqual => true
  | comparison, .less | comparison, .lessEqual => true
  | term, .minus | term, .plus => true
  | factor, .slash | factor, .star => true
  | _, _ => false

/-- The node for two operands of this level. -/
def join (level : Level) (left : Expr) (operator : Token) (right : Expr) : Expr :=
  match level with
  | disjunction | conjunction => .logical left operator right
  | _ => .binary left operator right

/-- How many levels are tighter. -/
def rank : Level → Nat
  | disjunction => 5
  | conjunction => 4
  | equality => 3
  | comparison => 2
  | term => 1
  | factor => 0

theorem rank_lt_of_tighter? {level next : Level} (tighter : level.tighter? = some next) :
    next.rank < level.rank := by
  cases level <;> simp only [tighter?, Option.some.injEq, reduceCtorEq] at tighter <;>
    subst tighter <;> decide

theorem rank_le (level : Level) : level.rank ≤ 5 := by cases level <;> decide

end Level

def isSign : TokenKind → Bool
  | .bang | .minus => true
  | _ => false

def isIncrement : TokenKind → Bool
  | .increment | .decrement => true
  | _ => false

/-- The node for `left = value`. Only a variable can be assigned to. -/
def assignment (left : Expr) (equals : Token) (value : Expr) : Expr × List SyntaxError :=
  match left with
  | .var name => (.assign name value, [])
  | _ => (left, [⟨.invalidAssignmentTarget, equals⟩])

/-- The node for a target with `++` or `--` behind it. Only a variable can be incremented. -/
def incremented (target : Expr) (sign : Token) : Expr × List SyntaxError :=
  match target with
  | .var name => (.increment name sign, [])
  | _ => (target, [⟨.invalidIncrementTarget, sign⟩])

/-- The error for a list of `count` entries in front of `next`, if it is too long. -/
def lengthErrors (cause : SyntaxCause) (count : Nat) (next : Token) : List SyntaxError :=
  if listLimit ≤ count then [⟨cause, next⟩] else []

namespace Grammar

variable (final : Token)

mutual
def expression (tokens : List Token) : Step tokens.length Expr :=
  (chain .disjunction tokens).bind fun left rest shorter =>
    match take? (· == .assign) rest with
    | none => .ok left [] rest shorter
    | some equals =>
      have := equals.shorter
      ((equals.carry (expression equals.rest)).behind shorter).bind fun value rest shorter =>
        let (node, noted) := assignment left equals.token value
        .ok node noted rest shorter
termination_by tokens.length * 20 + 16
decreasing_by
  · simp only [Level.rank]; omega
  · omega

/-- A chain of operands of one level, grouped to the left. -/
def chain (level : Level) (tokens : List Token) : Step tokens.length Expr :=
  (operand level tokens).bind fun left rest shorter => (chainRest level left rest).lift shorter
termination_by tokens.length * 20 + 5 + 2 * level.rank
decreasing_by all_goals omega

def chainRest (level : Level) (left : Expr) (tokens : List Token) : Step (tokens.length + 1) Expr :=
  match take? level.joins tokens with
  | none => .done left tokens
  | some operator =>
    have := operator.shorter
    Step.weaken <| (operator.carry (operand level operator.rest)).bind fun right rest shorter =>
      (chainRest level (level.join left operator.token right) rest).lift shorter
termination_by tokens.length * 20
decreasing_by
  all_goals
    have := level.rank_le
    omega

def operand (level : Level) (tokens : List Token) : Step tokens.length Expr :=
  match tighter : level.tighter? with
  | some next =>
    have := Level.rank_lt_of_tighter? tighter
    chain next tokens
  | none => unary tokens
termination_by tokens.length * 20 + 4 + 2 * level.rank
decreasing_by all_goals omega

def unary (tokens : List Token) : Step tokens.length Expr :=
  match take? isSign tokens with
  | none => call tokens
  | some operator =>
    have := operator.shorter
    operator.carry ((unary operator.rest).map (.unary operator.token))
termination_by tokens.length * 20 + 3
decreasing_by all_goals omega

def call (tokens : List Token) : Step tokens.length Expr :=
  (increment tokens).bind fun callee rest shorter => (callRest callee rest).lift shorter
termination_by tokens.length * 20 + 2
decreasing_by all_goals omega

def callRest (callee : Expr) (tokens : List Token) : Step (tokens.length + 1) Expr :=
  match take? (· == .leftParen) tokens with
  | none => .done callee tokens
  | some opening =>
    have := opening.shorter
    Step.weaken <| ((arguments opening.rest).lift opening.shorter).bind fun values rest shorter =>
      ((expect final .rightParen "')' after arguments" rest).behind shorter).bind
        fun closing rest shorter =>
          (callRest (.call callee closing values) rest).lift shorter
termination_by tokens.length * 20
decreasing_by all_goals omega

/-- Arguments up to, but not including, the closing parenthesis. -/
def arguments (tokens : List Token) : Step (tokens.length + 1) (List Expr) :=
  if startsWith .rightParen tokens then .done [] tokens
  else
    Step.weaken <| (argumentList tokens).bind fun values rest shorter =>
      .ok values (lengthErrors .tooManyArguments values.length (current final rest)) rest shorter
termination_by tokens.length * 20 + 18
decreasing_by all_goals omega

def argumentList (tokens : List Token) : Step tokens.length (List Expr) :=
  (expression tokens).bind fun first rest shorter =>
    match take? (· == .comma) rest with
    | none => .ok [first] [] rest shorter
    | some comma =>
      have := comma.shorter
      (comma.carry ((argumentList comma.rest).map (first :: ·))).behind shorter
termination_by tokens.length * 20 + 17
decreasing_by all_goals omega

def increment (tokens : List Token) : Step tokens.length Expr :=
  (primary tokens).bind fun target rest shorter =>
    match take? isIncrement rest with
    | none => .ok target [] rest shorter
    | some sign =>
      let (node, noted) := incremented target sign.token
      .ok node noted sign.rest (Nat.lt_trans sign.shorter shorter)
termination_by tokens.length * 20 + 1
decreasing_by all_goals omega

def primary (tokens : List Token) : Step tokens.length Expr :=
  match tokens with
  | [] => .fail ⟨.expectedExpression, final⟩ [] [] (Nat.le_refl _)
  | token :: rest =>
    match token.kind with
    | .keyword .falseWord => .done (.literal (.bool false)) rest
    | .keyword .trueWord => .done (.literal (.bool true)) rest
    | .keyword .nilWord => .done (.literal .nil) rest
    | .number | .string | .bytes => .done (.literal (.ofToken token)) rest
    | .identifier => .done (.var token) rest
    | .leftParen =>
      Step.weaken <| (expression rest).andThen fun inner rest =>
        (expect final .rightParen "')' after expression" rest).map fun _ => .grouping inner
    | _ => .fail ⟨.expectedExpression, token⟩ [] (token :: rest) (Nat.le_refl _)
termination_by tokens.length * 20
decreasing_by all_goals simp only [List.length_cons]; omega
end

end Grammar

end TinyScript
