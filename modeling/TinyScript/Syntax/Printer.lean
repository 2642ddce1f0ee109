import TinyScript.Syntax.Basic

/-! Program trees as text. The text of a tree that parsing builds reads back as that tree. -/
namespace TinyScript

def Primitive.text : Primitive → String
  | nil => "nil"
  | bool true => "true"
  | bool false => "false"
  | int value => toString value.toInt
  | string value => "\"" ++ value ++ "\""
  | bytes value => "'" ++ Text.hexOfBytes value ++ "'"

def Expr.isUnary : Expr → Bool
  | unary .. => true
  | _ => false

mutual
/-- A unary operand of a unary operator stands off by a space, so that two signs do not merge. -/
def Expr.text : Expr → String
  | .literal value => value.text
  | .grouping inner => "(" ++ inner.text ++ ")"
  | .unary operator right =>
    operator.lexeme ++ (if right.isUnary then " " else "") ++ right.text
  | .binary left operator right => left.text ++ " " ++ operator.lexeme ++ " " ++ right.text
  | .logical left operator right => left.text ++ " " ++ operator.lexeme ++ " " ++ right.text
  | .var name => name.lexeme
  | .assign name value => name.lexeme ++ " = " ++ value.text
  | .call callee _ arguments =>
    callee.text ++ "(" ++ String.intercalate ", " (Expr.texts arguments) ++ ")"
  | .increment name sign => name.lexeme ++ sign.lexeme

def Expr.texts : List Expr → List String
  | [] => []
  | first :: others => first.text :: Expr.texts others
end

/-- Statement texts between braces. -/
def bracedText (statements : List String) : String :=
  if statements = [] then "\x7b \x7d"
  else "\x7b " ++ String.intercalate " " statements ++ " \x7d"

mutual
def Stmt.text : Stmt → String
  | .expression value => value.text ++ ";"
  | .declare name (some initializer) => "var " ++ name.lexeme ++ " = " ++ initializer.text ++ ";"
  | .declare name none => "var " ++ name.lexeme ++ ";"
  | .block statements => bracedText (Stmt.texts statements)
  | .branch condition consequent (some alternative) =>
    "if (" ++ condition.text ++ ") " ++ consequent.text ++ " else " ++ alternative.text
  | .branch condition consequent none => "if (" ++ condition.text ++ ") " ++ consequent.text
  | .loop condition body => "while (" ++ condition.text ++ ") " ++ body.text
  | .function name parameters body =>
    "fun " ++ name.lexeme ++ "(" ++ String.intercalate ", " (parameters.map Token.lexeme) ++ ") " ++
      bracedText (Stmt.texts body)
  | .ret _ (some value) => "return " ++ value.text ++ ";"
  | .ret _ none => "return;"

def Stmt.texts : List Stmt → List String
  | [] => []
  | first :: others => first.text :: Stmt.texts others
end

/-- A program as text, one line for each statement at the top. -/
def programText (statements : List Stmt) : String :=
  String.intercalate "\n" (Stmt.texts statements)

end TinyScript
