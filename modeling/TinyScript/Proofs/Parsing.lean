import TinyScript.Proofs.Feeding

/-! Parsing on demand. The rules of the grammar read from a window, which pulls a token when one is
passed and sees no more of the stream than two tokens ahead. A rule calls others through a function
that it is given, and fuel bounds how deep the calls go; loops are rules that call themselves. -/
namespace TinyScript

/-- The token that was passed last, or the current one in front of all. -/
def Window.passed (window : Window) : Token := window.previous.getD window.current

/-- What a rule gives: a value or the error that stopped it, the errors noted on the way, and the
window behind. -/
structure Reply (α : Type) where
  result : Except SyntaxError α
  noted : List SyntaxError
  window : Window

/-- A rule on a window. Without fuel it gives nothing. -/
def Parsing (α : Type) : Type := Window → Option (Reply α)

namespace Parsing

variable {α β : Type}

def give (value : α) : Parsing α := fun window => some ⟨.ok value, [], window⟩

/-- Goes on with the value and the window behind. Errors noted on both sides are kept in order. -/
def andThen (rule : Parsing α) (next : α → Parsing β) : Parsing β := fun window =>
  match rule window with
  | none => none
  | some ⟨.error error, noted, behind⟩ => some ⟨.error error, noted, behind⟩
  | some ⟨.ok value, noted, behind⟩ =>
    (next value behind).map fun reply => { reply with noted := noted ++ reply.noted }

instance : Monad Parsing where
  pure := give
  bind := andThen

def peek : Parsing Token := fun window => some ⟨.ok window.current, [], window⟩

def peekNext : Parsing Token := fun window => some ⟨.ok window.next, [], window⟩

/-- The token that was passed last, if there is one. -/
def previous? : Parsing (Option Token) := fun window => some ⟨.ok window.previous, [], window⟩

def atEnd : Parsing Bool := do
  return (← peek).kind == .endOfInput

/-- Passes a token and gives it. -/
def advance : Parsing Token := fun window => some ⟨.ok window.advance.passed, [], window.advance⟩

/-- Stops at the current token. -/
def fail (cause : SyntaxCause) : Parsing α := fun window =>
  some ⟨.error ⟨cause, window.current⟩, [], window⟩

/-- Notes errors without stopping. -/
def note (errors : List SyntaxError) : Parsing Unit := fun window => some ⟨.ok (), errors, window⟩

/-- Whether a rule stopped, and why, without stopping. -/
def attempt (rule : Parsing α) : Parsing (Except SyntaxError α) := fun window =>
  (rule window).map fun reply => ⟨.ok reply.result, reply.noted, reply.window⟩

/-- Whether the current token is wanted; the end never is. -/
def check (wanted : TokenKind → Bool) : Parsing Bool := do
  let token ← peek
  return token.kind != .endOfInput && wanted token.kind

/-- Passes the current token if it is wanted. -/
def accept? (wanted : TokenKind → Bool) : Parsing (Option Token) := do
  if ← check wanted then return some (← advance) else return none

/-- Passes a token of the given kind, or stops. -/
def consume (kind : TokenKind) (what : String) : Parsing Token := do
  if ← check (· == kind) then advance else fail (.expected what)

end Parsing

/-- The rules that call each other, by what they give. -/
inductive Rule : Type → Type where
  | expression : Rule Expr
  | chain (level : Level) : Rule Expr
  | chainRest (level : Level) (left : Expr) : Rule Expr
  | operand (level : Level) : Rule Expr
  | unary : Rule Expr
  | call : Rule Expr
  | callRest (callee : Expr) : Rule Expr
  | arguments : Rule (List Expr)
  | argumentList : Rule (List Expr)
  | increment : Rule Expr
  | primary : Rule Expr
  | parameterList : Rule (List Token)
  | statement : Rule Stmt
  /-- A declaration that stops at an error. -/
  | plainDeclaration : Rule Stmt
  /-- Passes tokens up to the next likely start of a statement. -/
  | resume : Rule Unit
  /-- A declaration that goes on behind an error. -/
  | declaration : Rule (Option Stmt)
  | declarations (inBlock : Bool) : Rule (List Stmt)
  | block : Rule (List Stmt)

namespace Rule

open Parsing

section Bodies

variable (again : {α : Type} → Rule α → Parsing α)

def expressionBefore (absent : TokenKind) : Parsing (Option Expr) := do
  if ← check (· == absent) then return none else return some (← again .expression)

def initializer : Parsing (Option Expr) := do
  match ← accept? (· == .assign) with
  | none => return none
  | some _ => return some (← again .expression)

def variableRule : Parsing Stmt := do
  let name ← consume .identifier "variable name"
  let value ← initializer again
  let _ ← consume .semicolon "';' after variable declaration"
  return .declare name value

def expressionRule : Parsing Stmt := do
  let value ← again .expression
  let _ ← consume .semicolon "';' after expression"
  return .expression value

def printRule : Parsing Stmt := do
  let keyword ← advance
  let value ← again .expression
  let semicolon ← consume .semicolon "';' after value"
  return printStatement keyword value semicolon

def returnRule (keyword : Token) : Parsing Stmt := do
  let value ← expressionBefore again .semicolon
  let _ ← consume .semicolon "';' after return value"
  return .ret keyword value

def condition (keyword closing : String) : Parsing Expr := do
  let _ ← consume .leftParen ("'(' after '" ++ keyword ++ "'")
  let value ← again .expression
  let _ ← consume .rightParen closing
  return value

def forInitializer : Parsing (Option Stmt) := do
  match ← accept? (· == .semicolon) with
  | some _ => return none
  | none =>
    match ← accept? (· == .keyword .varWord) with
    | some _ => return some (← variableRule again)
    | none => return some (← expressionRule again)

def forHeader : Parsing ForHeader := do
  let _ ← consume .leftParen "'(' after 'for'"
  let initializer ← forInitializer again
  let condition ← expressionBefore again .semicolon
  let _ ← consume .semicolon "';' after loop condition"
  let increment ← expressionBefore again .rightParen
  let _ ← consume .rightParen "')' after for clauses"
  return ⟨initializer, condition, increment⟩

def parameters : Parsing (List Token) := do
  if ← check (· == .rightParen) then return []
  else
    let names ← again .parameterList
    note (lengthErrors .tooManyParameters names.length (← peek))
    return names

def functionHeader : Parsing FunctionHeader := do
  let name ← consume .identifier "function name"
  let _ ← consume .leftParen "'(' after function name"
  let names ← parameters again
  let _ ← consume .rightParen "')' after parameters"
  let _ ← consume .leftBrace "'\x7b' before function body"
  return ⟨name, names⟩

/-- Whether a print statement starts here. -/
def atPrint : Parsing Bool := do
  let token ← peek
  let next ← peekNext
  return token.kind == .identifier && token.lexeme == "print" && next.kind != .leftParen

/-- What each rule does, given how to go on with others. -/
def body {α : Type} : Rule α → Parsing α
  | .expression => do
    let left ← again (.chain .disjunction)
    match ← accept? (· == .assign) with
    | none => return left
    | some equals =>
      let value ← again .expression
      let (node, noted) := assignment left equals value
      note noted
      return node
  | .chain level => do
    let left ← again (.operand level)
    again (.chainRest level left)
  | .chainRest level left => do
    match ← accept? level.joins with
    | none => return left
    | some operator =>
      let right ← again (.operand level)
      again (.chainRest level (level.join left operator right))
  | .operand level =>
    match level.tighter? with
    | some next => again (.chain next)
    | none => again .unary
  | .unary => do
    match ← accept? isSign with
    | none => again .call
    | some operator => return .unary operator (← again .unary)
  | .call => do
    let callee ← again .increment
    again (.callRest callee)
  | .callRest callee => do
    match ← accept? (· == .leftParen) with
    | none => return callee
    | some _ =>
      let values ← again .arguments
      let closing ← consume .rightParen "')' after arguments"
      again (.callRest (.call callee closing values))
  | .arguments => do
    if ← check (· == .rightParen) then return []
    else
      let values ← again .argumentList
      note (lengthErrors .tooManyArguments values.length (← peek))
      return values
  | .argumentList => do
    let first ← again .expression
    match ← accept? (· == .comma) with
    | none => return [first]
    | some _ => return first :: (← again .argumentList)
  | .increment => do
    let target ← again .primary
    match ← accept? isIncrement with
    | none => return target
    | some sign =>
      let (node, noted) := incremented target sign
      note noted
      return node
  | .primary => do
    match (← peek).kind with
    | .keyword .falseWord => let _ ← advance; return .literal (.bool false)
    | .keyword .trueWord => let _ ← advance; return .literal (.bool true)
    | .keyword .nilWord => let _ ← advance; return .literal .nil
    | .number | .string | .bytes => return .literal (.ofToken (← advance))
    | .identifier => return .var (← advance)
    | .leftParen =>
      let _ ← advance
      let inner ← again .expression
      let _ ← consume .rightParen "')' after expression"
      return .grouping inner
    | _ => fail .expectedExpression
  | .parameterList => do
    let first ← consume .identifier "parameter name"
    match ← accept? (· == .comma) with
    | none => return [first]
    | some _ => return first :: (← again .parameterList)
  | .statement => do
    match (← peek).kind with
    | .keyword .forWord =>
      let _ ← advance
      let header ← forHeader again
      return header.loop (← again .statement)
    | .keyword .ifWord =>
      let _ ← advance
      let condition ← condition again "if" "')' after if condition"
      let consequent ← again .statement
      match ← accept? (· == .keyword .elseWord) with
      | none => return .branch condition consequent none
      | some _ => return .branch condition consequent (some (← again .statement))
    | .keyword .returnWord => returnRule again (← advance)
    | .keyword .whileWord =>
      let _ ← advance
      let condition ← condition again "while" "')' after condition"
      return .loop condition (← again .statement)
    | .leftBrace =>
      let _ ← advance
      return .block (← again .block)
    | _ => if ← atPrint then printRule again else expressionRule again
  | .plainDeclaration => do
    match ← accept? (· == .keyword .funWord) with
    | some _ =>
      let header ← functionHeader again
      return .function header.name header.parameters (← again .block)
    | none =>
      match ← accept? (· == .keyword .varWord) with
      | some _ => variableRule again
      | none => again .statement
  | .resume => do
    if ← atEnd then return ()
    else if (← previous?).any (·.kind == .semicolon) || (← peek).kind.startsStatement then return ()
    else
      let _ ← advance
      again .resume
  | .declaration => do
    match ← attempt (again .plainDeclaration) with
    | .ok found => return some found
    | .error error =>
      note [error]
      let _ ← advance
      again .resume
      return none
  | .declarations inBlock => do
    if ← atEnd then return []
    else if inBlock && (← peek).kind == .rightBrace then return []
    else
      let first ← again .declaration
      return first.toList ++ (← again (.declarations inBlock))
  | .block => do
    let statements ← again (.declarations true)
    let _ ← consume .rightBrace "'\x7d' after block"
    return statements

end Bodies

/-- A rule with fuel for calls of the given depth. -/
def run : Nat → {α : Type} → Rule α → Parsing α
  | 0, _, _ => fun _ => none
  | fuel + 1, _, rule => body (run fuel) rule

end Rule

end TinyScript
