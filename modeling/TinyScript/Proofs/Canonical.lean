import TinyScript.Proofs.LexemeText
import TinyScript.Proofs.Printed
import TinyScript.Proofs.Sentence

/-! Canonical trees: every operand binds tightly enough for its place, every token has the spelling
that belongs there, and lists and values can be written down. -/
namespace TinyScript

/-- A token with the fixed spelling of its kind. -/
structure Token.Spelled (token : Token) : Prop where
  lexeme : token.lexeme = token.kind.description
  literal : token.literal = none

/-- A name that is no reserved word. -/
structure Token.Named (token : Token) : Prop where
  kind : token.kind = .identifier
  lexeme : isNameText token.lexeme = true
  literal : token.literal = none

theorem Token.Spelled.bare_eq {token : Token} (spelled : token.Spelled) :
    token.bare = .fixed token.kind := by
  simp [Token.bare, Token.fixed, spelled.lexeme, spelled.literal]

theorem Token.Named.bare_eq {token : Token} (named : token.Named) :
    token.bare = { kind := .identifier, lexeme := token.lexeme, line := 0, span := ⟨0, 0⟩ } := by
  simp [Token.bare, named.kind, named.literal]

theorem Level.printed_join (level : Level) (left right : Expr) (operator : Token) :
    (level.join left operator right).printed = left.printed ++ operator.bare :: right.printed := by
  cases level <;> simp only [Level.join, Expr.printed]

/-- Values that can be written down: integers without a sign, and strings without quotes. -/
def Primitive.Writable : Primitive → Prop
  | .int value => 0 ≤ value
  | .string value => '"' ∉ value.toList
  | _ => True

/-- Expressions that can stand at a place of the grammar without parentheses around them. -/
inductive Expr.Canonical : Tier → Expr → Prop where
  | assign {name : Token} {value : Expr} (named : name.Named)
      (inner : Canonical .assignment value) : Canonical .assignment (.assign name value)
  | chained {value : Expr} (inner : Canonical (.chain .disjunction) value) :
      Canonical .assignment value
  | join {level : Level} {left right : Expr} {operator : Token}
      (joins : level.joins operator.kind = true) (spelled : operator.Spelled)
      (leftward : Canonical (.chain level) left) (rightward : Canonical level.operandTier right) :
      Canonical (.chain level) (level.join left operator right)
  | operand {level : Level} {value : Expr} (inner : Canonical level.operandTier value) :
      Canonical (.chain level) value
  | unary {operator : Token} {right : Expr} (sign : isSign operator.kind = true)
      (spelled : operator.Spelled) (inner : Canonical .unary right) :
      Canonical .unary (.unary operator right)
  | unsigned {value : Expr} (inner : Canonical .call value) : Canonical .unary value
  | call {callee : Expr} {paren : Token} {arguments : List Expr} (called : Canonical .call callee)
      (isClosing : paren.kind = .rightParen) (spelled : paren.Spelled)
      (values : ∀ argument ∈ arguments, Canonical .assignment argument)
      (short : arguments.length < listLimit) : Canonical .call (.call callee paren arguments)
  | uncalled {value : Expr} (inner : Canonical .increment value) : Canonical .call value
  | increment {name sign : Token} (named : name.Named) (isCount : isIncrement sign.kind = true)
      (spelled : sign.Spelled) : Canonical .increment (.increment name sign)
  | uncounted {value : Expr} (inner : Canonical .primary value) : Canonical .increment value
  | literal {value : Primitive} (writable : value.Writable) : Canonical .primary (.literal value)
  | var {name : Token} (named : name.Named) : Canonical .primary (.var name)
  | grouping {inner : Expr} (grouped : Canonical .assignment inner) :
      Canonical .primary (.grouping inner)

/-- A unary expression is an operand of every level. -/
theorem Expr.Canonical.of_unary {value : Expr} (canonical : Canonical .unary value)
    (level : Level) : Canonical (.chain level) value := by
  have factor : Canonical (.chain .factor) value := .operand canonical
  have term : Canonical (.chain .term) value := .operand factor
  have comparison : Canonical (.chain .comparison) value := .operand term
  have equality : Canonical (.chain .equality) value := .operand comparison
  have conjunction : Canonical (.chain .conjunction) value := .operand equality
  have disjunction : Canonical (.chain .disjunction) value := .operand conjunction
  cases level with
  | disjunction => exact disjunction
  | conjunction => exact conjunction
  | equality => exact equality
  | comparison => exact comparison
  | term => exact term
  | factor => exact factor

theorem Expr.Canonical.of_call {value : Expr} (canonical : Canonical .call value) :
    Canonical .assignment value :=
  .chained (.of_unary (.unsigned canonical) .disjunction)

theorem Expr.Canonical.of_primary {value : Expr} (canonical : Canonical .primary value) :
    Canonical .assignment value :=
  .of_call (.uncalled (.uncounted canonical))

/-- Whether an `else` behind the statement would belong to an `if` inside it. -/
def Stmt.takesElse : Stmt → Bool
  | .branch _ _ none => true
  | .branch _ _ (some alternative) => alternative.takesElse
  | .loop _ body => body.takesElse
  | _ => false

/-- Statements that can stand at a place of the grammar without braces around them. -/
inductive Stmt.Canonical : Slot → Stmt → Prop where
  | statement {statement : Stmt} (inner : Canonical .statement statement) :
      Canonical .declaration statement
  | expression {value : Expr} (inner : value.Canonical .assignment) :
      Canonical .statement (.expression value)
  | declare {name : Token} {initializer : Option Expr} (named : name.Named)
      (initial : ∀ value, initializer = some value → value.Canonical .assignment) :
      Canonical .declaration (.declare name initializer)
  | block {statements : List Stmt}
      (inner : ∀ statement ∈ statements, Canonical .declaration statement) :
      Canonical .statement (.block statements)
  | branch {condition : Expr} {consequent : Stmt} (tested : condition.Canonical .assignment)
      (inner : Canonical .statement consequent) :
      Canonical .statement (.branch condition consequent none)
  | choice {condition : Expr} {consequent alternative : Stmt}
      (tested : condition.Canonical .assignment) (inner : Canonical .statement consequent)
      (nearest : consequent.takesElse = false) (last : Canonical .statement alternative) :
      Canonical .statement (.branch condition consequent (some alternative))
  | loop {condition : Expr} {body : Stmt} (tested : condition.Canonical .assignment)
      (inner : Canonical .statement body) : Canonical .statement (.loop condition body)
  | function {name : Token} {parameters : List Token} {body : List Stmt} (named : name.Named)
      (names : ∀ parameter ∈ parameters, parameter.Named) (short : parameters.length < listLimit)
      (inner : ∀ statement ∈ body, Canonical .declaration statement) :
      Canonical .declaration (.function name parameters body)
  | ret {keyword : Token} {value : Option Expr} (isReturn : keyword.kind = .keyword .returnWord)
      (spelled : keyword.Spelled)
      (returned : ∀ present, value = some present → present.Canonical .assignment) :
      Canonical .statement (.ret keyword value)

/-- Whether the expression starts with the name `print` and no parenthesis follows that name. -/
def Expr.opensWithPrint : Expr → Bool
  | .binary left _ _ | .logical left _ _ => left.opensWithPrint
  | .var name | .assign name _ | .increment name _ => name.lexeme == "print"
  | .call (.var _) _ _ => false
  | .call callee _ _ => callee.opensWithPrint
  | .literal _ | .grouping _ | .unary .. => false

mutual
/-- Whether no expression statement looks like a print statement. -/
def Stmt.silent : Stmt → Bool
  | .expression value => !value.opensWithPrint
  | .block statements => Stmt.allSilent statements
  | .branch _ consequent (some alternative) => consequent.silent && alternative.silent
  | .branch _ consequent none => consequent.silent
  | .loop _ body => body.silent
  | .function _ _ body => Stmt.allSilent body
  | .declare .. | .ret .. => true

def Stmt.allSilent : List Stmt → Bool
  | [] => true
  | first :: others => first.silent && Stmt.allSilent others
end

/-- A program whose text reads back as that program. -/
structure CanonicalProgram (program : List Stmt) : Prop where
  canonical : ∀ statement ∈ program, statement.Canonical .declaration
  silent : Stmt.allSilent program = true

end TinyScript
