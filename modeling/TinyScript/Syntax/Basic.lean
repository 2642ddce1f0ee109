import TinyScript.Token.Basic

/-! Program trees. Nodes keep the tokens that name, join or close them, so that errors at run time
can point into the source. -/
namespace TinyScript

/-- A value written down in a program. -/
inductive Primitive where
  | nil
  | bool (value : Bool)
  | int (value : Int64)
  | string (value : String)
  | bytes (value : List UInt8)
deriving DecidableEq

def Primitive.ofLiteral : Literal → Primitive
  | .int value => int value
  | .string value => string value
  | .bytes value => bytes value

/-- The value of a literal token; a token without one stands for `nil`. -/
def Primitive.ofToken (token : Token) : Primitive :=
  match token.literal with
  | some literal => ofLiteral literal
  | none => nil

/-- Expressions. Operators, names, closing parentheses and signs are tokens of the source. -/
inductive Expr where
  | literal (value : Primitive)
  | grouping (inner : Expr)
  | unary (operator : Token) (right : Expr)
  | binary (left : Expr) (operator : Token) (right : Expr)
  | logical (left : Expr) (operator : Token) (right : Expr)
  | var (name : Token)
  | assign (name : Token) (value : Expr)
  | call (callee : Expr) (paren : Token) (arguments : List Expr)
  | increment (name : Token) (sign : Token)
deriving Inhabited

/-- Statements. -/
inductive Stmt where
  | expression (value : Expr)
  | declare (name : Token) (initializer : Option Expr)
  | block (statements : List Stmt)
  | branch (condition : Expr) (consequent : Stmt) (alternative : Option Stmt)
  | loop (condition : Expr) (body : Stmt)
  | function (name : Token) (parameters : List Token) (body : List Stmt)
  | ret (keyword : Token) (value : Option Expr)
deriving Inhabited

end TinyScript
