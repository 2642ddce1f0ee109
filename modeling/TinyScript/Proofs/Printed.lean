import TinyScript.Syntax.Printer
import TinyScript.Proofs.Scans

/-! Program trees up to the places of their tokens, and the tokens that the text of a tree is made
of. -/
namespace TinyScript

namespace Token

@[simp] theorem bare_kind (token : Token) : token.bare.kind = token.kind := rfl

@[simp] theorem bare_lexeme (token : Token) : token.bare.lexeme = token.lexeme := rfl

@[simp] theorem bare_literal (token : Token) : token.bare.literal = token.literal := rfl

@[simp] theorem fixed_kind (kind : TokenKind) : (fixed kind).kind = kind := rfl

end Token

mutual
def Expr.bare : Expr → Expr
  | .literal value => .literal value
  | .grouping inner => .grouping inner.bare
  | .unary operator right => .unary operator.bare right.bare
  | .binary left operator right => .binary left.bare operator.bare right.bare
  | .logical left operator right => .logical left.bare operator.bare right.bare
  | .var name => .var name.bare
  | .assign name value => .assign name.bare value.bare
  | .call callee paren arguments => .call callee.bare paren.bare (Expr.bares arguments)
  | .increment name sign => .increment name.bare sign.bare

def Expr.bares : List Expr → List Expr
  | [] => []
  | first :: others => first.bare :: Expr.bares others
end

mutual
def Stmt.bare : Stmt → Stmt
  | .expression value => .expression value.bare
  | .declare name initializer => .declare name.bare (initializer.map Expr.bare)
  | .block statements => .block (Stmt.bares statements)
  | .branch condition consequent (some alternative) =>
    .branch condition.bare consequent.bare (some alternative.bare)
  | .branch condition consequent none => .branch condition.bare consequent.bare none
  | .loop condition body => .loop condition.bare body.bare
  | .function name parameters body =>
    .function name.bare (parameters.map Token.bare) (Stmt.bares body)
  | .ret keyword value => .ret keyword.bare (value.map Expr.bare)

def Stmt.bares : List Stmt → List Stmt
  | [] => []
  | first :: others => first.bare :: Stmt.bares others
end

theorem Expr.isUnary_bare (value : Expr) : value.bare.isUnary = value.isUnary := by
  cases value <;> rfl

mutual
theorem Expr.text_bare (value : Expr) : value.bare.text = value.text := by
  cases value with
  | literal value => rfl
  | grouping inner => rw [Expr.bare, Expr.text, Expr.text, inner.text_bare]
  | unary operator right =>
    rw [Expr.bare, Expr.text, Expr.text, right.text_bare, right.isUnary_bare]
    rfl
  | binary left operator right | logical left operator right =>
    rw [Expr.bare, Expr.text, Expr.text, left.text_bare, right.text_bare]
    rfl
  | var name => rfl
  | assign name value =>
    rw [Expr.bare, Expr.text, Expr.text, value.text_bare]
    rfl
  | call callee paren arguments =>
    rw [Expr.bare, Expr.text, Expr.text, callee.text_bare, Expr.texts_bares arguments]
  | increment name sign => rfl

theorem Expr.texts_bares (values : List Expr) :
    Expr.texts (Expr.bares values) = Expr.texts values := by
  cases values with
  | nil => rfl
  | cons first others =>
    rw [Expr.bares, Expr.texts, Expr.texts, first.text_bare, Expr.texts_bares others]
end

mutual
theorem Stmt.text_bare (statement : Stmt) : statement.bare.text = statement.text := by
  match statement with
  | .expression value => rw [Stmt.bare, Stmt.text, Stmt.text, value.text_bare]
  | .declare name (some initializer) =>
    rw [Stmt.bare, Option.map_some, Stmt.text, Stmt.text, initializer.text_bare]
    rfl
  | .declare name none => rfl
  | .block statements => rw [Stmt.bare, Stmt.text, Stmt.text, Stmt.texts_bares statements]
  | .branch condition consequent (some alternative) =>
    rw [Stmt.bare, Stmt.text, Stmt.text, condition.text_bare, consequent.text_bare,
      alternative.text_bare]
  | .branch condition consequent none =>
    rw [Stmt.bare, Stmt.text, Stmt.text, condition.text_bare, consequent.text_bare]
  | .loop condition body => rw [Stmt.bare, Stmt.text, Stmt.text, condition.text_bare, body.text_bare]
  | .function name parameters body =>
    rw [Stmt.bare, Stmt.text, Stmt.text, Stmt.texts_bares body, List.map_map]
    rfl
  | .ret keyword (some value) =>
    rw [Stmt.bare, Option.map_some, Stmt.text, Stmt.text, value.text_bare]
  | .ret keyword none => rfl

theorem Stmt.texts_bares (statements : List Stmt) :
    Stmt.texts (Stmt.bares statements) = Stmt.texts statements := by
  match statements with
  | [] => rfl
  | first :: others =>
    rw [Stmt.bares, Stmt.texts, Stmt.texts, first.text_bare, Stmt.texts_bares others]
end

/-- Trees that differ in places only have the same text. -/
theorem programText_eq_of_bares {statements others : List Stmt}
    (same : Stmt.bares statements = Stmt.bares others) :
    programText statements = programText others := by
  rw [programText, programText, ← Stmt.texts_bares statements, same, Stmt.texts_bares]

/-- The token that a value is written as. -/
def Primitive.token (value : Primitive) : Token :=
  let written (kind : TokenKind) (literal : Option Literal) : Token :=
    { kind, lexeme := value.text, literal, line := 0, span := ⟨0, 0⟩ }
  match value with
  | .nil => written (.keyword .nilWord) none
  | .bool true => written (.keyword .trueWord) none
  | .bool false => written (.keyword .falseWord) none
  | .int number => written .number (some (.int number))
  | .string content => written .string (some (.string content))
  | .bytes content => written .bytes (some (.bytes content))

/-- Token lists with commas between them. -/
def listed : List (List Token) → List Token
  | [] => []
  | [last] => last
  | first :: others => first ++ .fixed .comma :: listed others

mutual
def Expr.printed : Expr → List Token
  | .literal value => [value.token]
  | .grouping inner => .fixed .leftParen :: inner.printed ++ [.fixed .rightParen]
  | .unary operator right => operator.bare :: right.printed
  | .binary left operator right => left.printed ++ operator.bare :: right.printed
  | .logical left operator right => left.printed ++ operator.bare :: right.printed
  | .var name => [name.bare]
  | .assign name value => name.bare :: .fixed .assign :: value.printed
  | .call callee paren arguments =>
    callee.printed ++ .fixed .leftParen :: listed (Expr.printeds arguments) ++ [paren.bare]
  | .increment name sign => [name.bare, sign.bare]

def Expr.printeds : List Expr → List (List Token)
  | [] => []
  | first :: others => first.printed :: Expr.printeds others
end

/-- Tokens between braces. -/
def braced (tokens : List Token) : List Token :=
  .fixed .leftBrace :: tokens ++ [.fixed .rightBrace]

/-- A reserved word with a condition in parentheses. -/
def headed (word : Keyword) (condition : List Token) : List Token :=
  .fixed (.keyword word) :: .fixed .leftParen :: condition ++ [.fixed .rightParen]

mutual
def Stmt.printed : Stmt → List Token
  | .expression value => value.printed ++ [.fixed .semicolon]
  | .declare name (some initializer) =>
    .fixed (.keyword .varWord) :: name.bare :: .fixed .assign ::
      initializer.printed ++ [.fixed .semicolon]
  | .declare name none => [.fixed (.keyword .varWord), name.bare, .fixed .semicolon]
  | .block statements => braced (Stmt.printeds statements)
  | .branch condition consequent (some alternative) =>
    headed .ifWord condition.printed ++ consequent.printed ++
      .fixed (.keyword .elseWord) :: alternative.printed
  | .branch condition consequent none => headed .ifWord condition.printed ++ consequent.printed
  | .loop condition body => headed .whileWord condition.printed ++ body.printed
  | .function name parameters body =>
    .fixed (.keyword .funWord) :: name.bare :: .fixed .leftParen ::
      listed (parameters.map fun parameter => [parameter.bare]) ++
      .fixed .rightParen :: braced (Stmt.printeds body)
  | .ret keyword (some value) => keyword.bare :: value.printed ++ [.fixed .semicolon]
  | .ret keyword none => [keyword.bare, .fixed .semicolon]

def Stmt.printeds : List Stmt → List Token
  | [] => []
  | first :: others => first.printed ++ Stmt.printeds others
end

end TinyScript
