import TinyScript.Syntax.Expression

/-! The grammar of statements:

    declaration → function | variable | statement
    function → "fun" IDENT "(" [ IDENT { "," IDENT } ] ")" block
    variable → "var" IDENT [ "=" expression ] ";"
    statement → for | if | return | while | block | print | expression ";"
    for → "for" "(" ( variable | expression ";" | ";" ) [ expression ] ";" [ expression ] ")" statement
    if → "if" "(" expression ")" statement [ "else" statement ]
    return → "return" [ expression ] ";"      while → "while" "(" expression ")" statement
    block → "{" { declaration } "}"           print → "print" expression ";"

`for` and `print` have no nodes of their own and are spelled out in terms of the others. A
declaration that fails is left out, and parsing goes on at the next likely start of a statement. -/
namespace TinyScript

/-- What stands between the parentheses of a `for` loop. -/
structure ForHeader where
  initializer : Option Stmt
  condition : Option Expr
  increment : Option Expr

/-- The loop with the given body, in a block of its own if it starts with an initializer. -/
def ForHeader.loop (header : ForHeader) (body : Stmt) : Stmt :=
  let turn :=
    match header.increment with
    | some increment => .block [body, .expression increment]
    | none => body
  let repeated := Stmt.loop (header.condition.getD (.literal (.bool true))) turn
  match header.initializer with
  | some initializer => .block [initializer, repeated]
  | none => repeated

/-- The statement `print value;` is a call of `println` at the place of `print`, closed at the
place of the semicolon. -/
def printStatement (keyword : Token) (value : Expr) (semicolon : Token) : Stmt :=
  .expression (.call (.var (.synthetic .identifier "println" keyword))
    (.synthetic .rightParen ")" semicolon) [value])

/-- Whether a statement that starts with `token` and goes on with `rest` is a print statement:
`print` in front of a parenthesis is an ordinary name. -/
def startsPrint (token : Token) (rest : List Token) : Bool :=
  token.kind == .identifier && token.lexeme == "print" && !startsWith .leftParen rest

structure FunctionHeader where
  name : Token
  parameters : List Token

/-- Statements read one after another, with the errors on the way. -/
structure Statements (limit : Nat) where
  statements : List Stmt
  errors : List SyntaxError
  rest : List Token
  within : rest.length ≤ limit

namespace Grammar

/-- Drops tokens until a semicolon has been dropped or a statement starts. -/
def resume (dropped : Token) : List Token → List Token
  | [] => []
  | token :: rest =>
    if dropped.kind == .semicolon || token.kind.startsStatement then token :: rest
    else resume token rest

/-- Where parsing goes on after an error; at least one token is dropped. -/
def recover : List Token → List Token
  | [] => []
  | token :: rest => resume token rest

theorem length_resume_le (dropped : Token) (tokens : List Token) :
    (resume dropped tokens).length ≤ tokens.length := by
  induction tokens generalizing dropped with
  | nil => simp [resume]
  | cons token rest ih =>
    rw [resume]
    split
    · exact Nat.le_refl _
    · exact Nat.le_trans (ih token) (Nat.le_succ _)

theorem length_recover_lt {tokens : List Token} {limit : Nat} (within : tokens.length ≤ limit)
    (positive : 0 < limit) : (recover tokens).length < limit := by
  cases tokens with
  | nil => exact positive
  | cons token rest =>
    exact Nat.lt_of_lt_of_le (Nat.lt_succ_of_le (length_resume_le token rest)) within

variable (final : Token)

/-- An expression, unless the list starts with the token that may stand in its place. -/
def expressionBefore (absent : TokenKind) (tokens : List Token) :
    Step (tokens.length + 1) (Option Expr) :=
  if startsWith absent tokens then .done none tokens
  else ((expression final tokens).map some).weaken

/-- The initializer of a variable, if there is one. -/
def initializer (tokens : List Token) : Step (tokens.length + 1) (Option Expr) :=
  match take? (· == .assign) tokens with
  | none => .done none tokens
  | some equals => (equals.carry ((expression final equals.rest).map some)).weaken

/-- A variable declaration behind `var`. -/
def variableRule (tokens : List Token) : Step tokens.length Stmt :=
  (expect final .identifier "variable name" tokens).andOptional fun name rest =>
  (initializer final rest).andThen fun value rest =>
  (expect final .semicolon "';' after variable declaration" rest).map fun _ =>
    .declare name value

def expressionRule (tokens : List Token) : Step tokens.length Stmt :=
  (expression final tokens).andThen fun value rest =>
  (expect final .semicolon "';' after expression" rest).map fun _ => .expression value

/-- A print statement behind `print`. -/
def printRule (keyword : Token) (tokens : List Token) : Step tokens.length Stmt :=
  (expression final tokens).andThen fun value rest =>
  (expect final .semicolon "';' after value" rest).map fun semicolon =>
    printStatement keyword value semicolon

/-- A return statement behind `return`. -/
def returnRule (keyword : Token) (tokens : List Token) : Step (tokens.length + 1) Stmt :=
  (expressionBefore final .semicolon tokens).andThen fun value rest =>
  (expect final .semicolon "';' after return value" rest).map fun _ => .ret keyword value

/-- A condition in parentheses, behind the given keyword. -/
def condition (keyword closing : String) (tokens : List Token) : Step tokens.length Expr :=
  (expect final .leftParen ("'(' after '" ++ keyword ++ "'") tokens).andThen fun _ rest =>
  (expression final rest).andThen fun value rest =>
  (expect final .rightParen closing rest).map fun _ => value

/-- What a `for` loop starts with, up to and including the first semicolon. -/
def forInitializer (tokens : List Token) : Step tokens.length (Option Stmt) :=
  match take? (· == .semicolon) tokens with
  | some semicolon => .ok none [] semicolon.rest semicolon.shorter
  | none =>
    match take? (· == .keyword .varWord) tokens with
    | some opening => opening.carry ((variableRule final opening.rest).map some)
    | none => (expressionRule final tokens).map some

/-- The parentheses of a `for` loop. -/
def forHeader (tokens : List Token) : Step tokens.length ForHeader :=
  (expect final .leftParen "'(' after 'for'" tokens).andThen fun _ rest =>
  (forInitializer final rest).andOptional fun initializer rest =>
  (expressionBefore final .semicolon rest).andThen fun condition rest =>
  (expect final .semicolon "';' after loop condition" rest).andOptional fun _ rest =>
  (expressionBefore final .rightParen rest).andThen fun increment rest =>
  (expect final .rightParen "')' after for clauses" rest).map fun _ =>
    ⟨initializer, condition, increment⟩

/-- Parameter names, separated by commas. -/
def parameterList (tokens : List Token) : Step tokens.length (List Token) :=
  (expect final .identifier "parameter name" tokens).bind fun first rest shorter =>
    match take? (· == .comma) rest with
    | none => .ok [first] [] rest shorter
    | some comma =>
      have := comma.shorter
      (comma.carry ((parameterList comma.rest).map (first :: ·))).behind shorter
termination_by tokens.length
decreasing_by omega

/-- Parameters up to, but not including, the closing parenthesis. -/
def parameters (tokens : List Token) : Step (tokens.length + 1) (List Token) :=
  if startsWith .rightParen tokens then .done [] tokens
  else
    Step.weaken <| (parameterList final tokens).bind fun names rest shorter =>
      .ok names (lengthErrors .tooManyParameters names.length (current final rest)) rest shorter

/-- A function declaration behind `fun`, up to and including the opening brace. -/
def functionHeader (tokens : List Token) : Step tokens.length FunctionHeader :=
  (expect final .identifier "function name" tokens).andThen fun name rest =>
  (expect final .leftParen "'(' after function name" rest).andOptional fun _ rest =>
  (parameters final rest).andThen fun names rest =>
  (expect final .rightParen "')' after parameters" rest).andThen fun _ rest =>
  (expect final .leftBrace "'\x7b' before function body" rest).map fun _ => ⟨name, names⟩

mutual
/-- One declaration. -/
def declaration (tokens : List Token) : Step tokens.length Stmt :=
  match take? (· == .keyword .funWord) tokens with
  | some opening =>
    have := opening.shorter
    (opening.carry (functionHeader final opening.rest)).bind fun header rest shorter =>
      ((block rest).map (.function header.name header.parameters)).lift shorter
  | none =>
    match take? (· == .keyword .varWord) tokens with
    | some opening => opening.carry (variableRule final opening.rest)
    | none => statement tokens
termination_by tokens.length * 4 + 1
decreasing_by all_goals omega

/-- One statement. -/
def statement (tokens : List Token) : Step tokens.length Stmt :=
  match tokens with
  | [] => expressionRule final []
  | first :: rest =>
    match first.kind with
    | .keyword .forWord =>
      Step.weaken <| (forHeader final rest).bind fun header rest shorter =>
        ((statement rest).map header.loop).behind shorter
    | .keyword .ifWord =>
      Step.weaken <|
        (condition final "if" "')' after if condition" rest).bind fun condition rest shorter =>
        ((statement rest).behind shorter).bind fun consequent rest shorter =>
          match take? (· == .keyword .elseWord) rest with
          | none => .ok (.branch condition consequent none) [] rest shorter
          | some opening =>
            have := opening.shorter
            (opening.carry ((statement opening.rest).map fun alternative =>
              .branch condition consequent (some alternative))).behind shorter
    | .keyword .returnWord => returnRule final first rest
    | .keyword .whileWord =>
      Step.weaken <|
        (condition final "while" "')' after condition" rest).bind fun condition rest shorter =>
          ((statement rest).map (.loop condition)).behind shorter
    | .leftBrace => (block rest).map .block
    | _ =>
      if startsPrint first rest then (printRule final first rest).weaken
      else expressionRule final (first :: rest)
termination_by tokens.length * 4
decreasing_by all_goals simp only [List.length_cons]; omega

/-- The inside of a block, up to and including its closing brace. -/
def block (tokens : List Token) : Step (tokens.length + 1) (List Stmt) :=
  let inside := declarations true tokens
  match expect final .rightBrace "'\x7d' after block" inside.rest with
  | .ok _ noted rest shorter =>
    .ok inside.statements (inside.errors ++ noted) rest (by have := inside.within; omega)
  | .fail error noted rest within =>
    .fail error (inside.errors ++ noted) rest (by have := inside.within; omega)
termination_by tokens.length * 4 + 3
decreasing_by omega

/-- Declarations up to the end of the input or, inside a block, up to a closing brace. -/
def declarations (inBlock : Bool) (tokens : List Token) : Statements tokens.length :=
  match tokens with
  | [] => ⟨[], [], [], Nat.le_refl _⟩
  | first :: after =>
    if inBlock && first.kind == .rightBrace then ⟨[], [], first :: after, Nat.le_refl _⟩
    else
      match declaration (first :: after) with
      | .ok statement noted rest shorter =>
        let more := declarations inBlock rest
        ⟨statement :: more.statements, noted ++ more.errors, more.rest,
          Nat.le_trans more.within (Nat.le_of_lt shorter)⟩
      | .fail error noted rest within =>
        have shorter := length_recover_lt within (Nat.succ_pos _)
        let more := declarations inBlock (recover rest)
        ⟨more.statements, noted ++ error :: more.errors, more.rest,
          Nat.le_trans more.within (Nat.le_of_lt shorter)⟩
termination_by tokens.length * 4 + 2
decreasing_by all_goals simp only [List.length_cons] at *; omega
end

end Grammar

end TinyScript
