import Mathlib.Data.List.Forall2
import TinyScript.Syntax.Basic

/-! Trees that differ in nothing but their tokens. How far the tokens may differ is left open, as long
as names keep their spelling and all others their kind: that much evaluation looks at. -/
namespace TinyScript

/-- How far the tokens of two trees may differ: `names` are those of variables, functions and
parameters, `marks` all others. -/
structure Likeness where
  names : Token → Token → Prop
  marks : Token → Token → Prop
  lexeme_eq {name other : Token} : names name other → name.lexeme = other.lexeme
  kind_eq {mark other : Token} : marks mark other → mark.kind = other.kind

/-- The expressions have the same shape, the same literals and like tokens. -/
inductive Expr.Like (like : Likeness) : Expr → Expr → Prop where
  | literal (value : Primitive) : Like like (.literal value) (.literal value)
  | grouping {inner inner' : Expr} (same : Like like inner inner') :
      Like like (.grouping inner) (.grouping inner')
  | unary {operator operator' : Token} {right right' : Expr}
      (mark : like.marks operator operator') (same : Like like right right') :
      Like like (.unary operator right) (.unary operator' right')
  | binary {left left' right right' : Expr} {operator operator' : Token}
      (first : Like like left left') (mark : like.marks operator operator')
      (second : Like like right right') :
      Like like (.binary left operator right) (.binary left' operator' right')
  | logical {left left' right right' : Expr} {operator operator' : Token}
      (first : Like like left left') (mark : like.marks operator operator')
      (second : Like like right right') :
      Like like (.logical left operator right) (.logical left' operator' right')
  | var {name name' : Token} (named : like.names name name') : Like like (.var name) (.var name')
  | assign {name name' : Token} {value value' : Expr} (named : like.names name name')
      (same : Like like value value') : Like like (.assign name value) (.assign name' value')
  | call {callee callee' : Expr} {paren paren' : Token} {arguments arguments' : List Expr}
      (called : Like like callee callee') (mark : like.marks paren paren')
      (given : List.Forall₂ (Like like) arguments arguments') :
      Like like (.call callee paren arguments) (.call callee' paren' arguments')
  | increment {name name' sign sign' : Token} (named : like.names name name')
      (mark : like.marks sign sign') : Like like (.increment name sign) (.increment name' sign')

/-- The statements have the same shape and like expressions and tokens. -/
inductive Stmt.Like (like : Likeness) : Stmt → Stmt → Prop where
  | expression {value value' : Expr} (same : value.Like like value') :
      Like like (.expression value) (.expression value')
  | declare {name name' : Token} {initializer initializer' : Option Expr}
      (named : like.names name name')
      (same : Option.Rel (Expr.Like like) initializer initializer') :
      Like like (.declare name initializer) (.declare name' initializer')
  | block {statements statements' : List Stmt}
      (same : List.Forall₂ (Like like) statements statements') :
      Like like (.block statements) (.block statements')
  | branch {condition condition' : Expr} {consequent consequent' : Stmt}
      {alternative alternative' : Option Stmt} (tested : condition.Like like condition')
      (same : Like like consequent consequent')
      (otherwise : Option.Rel (Like like) alternative alternative') :
      Like like (.branch condition consequent alternative)
        (.branch condition' consequent' alternative')
  | loop {condition condition' : Expr} {body body' : Stmt}
      (tested : condition.Like like condition') (same : Like like body body') :
      Like like (.loop condition body) (.loop condition' body')
  | function {name name' : Token} {parameters parameters' : List Token} {body body' : List Stmt}
      (named : like.names name name') (given : List.Forall₂ like.names parameters parameters')
      (same : List.Forall₂ (Like like) body body') :
      Like like (.function name parameters body) (.function name' parameters' body')
  | ret {keyword keyword' : Token} {value value' : Option Expr}
      (mark : like.marks keyword keyword') (same : Option.Rel (Expr.Like like) value value') :
      Like like (.ret keyword value) (.ret keyword' value')

/-- A token is like itself. -/
structure Likeness.Reflexive (like : Likeness) : Prop where
  names (name : Token) : like.names name name
  marks (mark : Token) : like.marks mark mark

namespace Likeness.Reflexive

variable {like : Likeness}

mutual
theorem expr (reflexive : like.Reflexive) : (value : Expr) → value.Like like value
  | .literal value => .literal value
  | .grouping inner => .grouping (reflexive.expr inner)
  | .unary operator right => .unary (reflexive.marks operator) (reflexive.expr right)
  | .binary left operator right =>
    .binary (reflexive.expr left) (reflexive.marks operator) (reflexive.expr right)
  | .logical left operator right =>
    .logical (reflexive.expr left) (reflexive.marks operator) (reflexive.expr right)
  | .var name => .var (reflexive.names name)
  | .assign name value => .assign (reflexive.names name) (reflexive.expr value)
  | .call callee paren arguments =>
    .call (reflexive.expr callee) (reflexive.marks paren) (reflexive.exprs arguments)
  | .increment name sign => .increment (reflexive.names name) (reflexive.marks sign)

theorem exprs (reflexive : like.Reflexive) :
    (values : List Expr) → List.Forall₂ (Expr.Like like) values values
  | [] => .nil
  | first :: others => .cons (reflexive.expr first) (reflexive.exprs others)
end

theorem optional (reflexive : like.Reflexive) :
    (value : Option Expr) → Option.Rel (Expr.Like like) value value
  | some value => .some (reflexive.expr value)
  | none => .none

mutual
theorem stmt (reflexive : like.Reflexive) : (statement : Stmt) → statement.Like like statement
  | .expression value => .expression (reflexive.expr value)
  | .declare name initializer => .declare (reflexive.names name) (reflexive.optional initializer)
  | .block statements => .block (reflexive.stmts statements)
  | .branch condition consequent (some alternative) =>
    .branch (reflexive.expr condition) (reflexive.stmt consequent)
      (.some (reflexive.stmt alternative))
  | .branch condition consequent none =>
    .branch (reflexive.expr condition) (reflexive.stmt consequent) .none
  | .loop condition body => .loop (reflexive.expr condition) (reflexive.stmt body)
  | .function name _ body =>
    .function (reflexive.names name) (List.forall₂_same.2 fun name _ => reflexive.names name)
      (reflexive.stmts body)
  | .ret keyword value => .ret (reflexive.marks keyword) (reflexive.optional value)

theorem stmts (reflexive : like.Reflexive) :
    (statements : List Stmt) → List.Forall₂ (Stmt.Like like) statements statements
  | [] => .nil
  | first :: others => .cons (reflexive.stmt first) (reflexive.stmts others)
end

end Likeness.Reflexive

/-- Tokens that are like each other only if they are the same. -/
def Likeness.exact : Likeness where
  names := Eq
  marks := Eq
  lexeme_eq same := congrArg Token.lexeme same
  kind_eq same := congrArg Token.kind same

namespace Likeness.exact

theorem reflexive : exact.Reflexive where
  names _ := rfl
  marks _ := rfl

mutual
theorem expr_eq : (value other : Expr) → value.Like exact other → value = other
  | .literal _, _, .literal _ => rfl
  | .grouping inner, _, .grouping same => by rw [expr_eq inner _ same]
  | .unary _ right, _, .unary mark same => by rw [mark, expr_eq right _ same]
  | .binary left _ right, _, .binary first mark second => by
    rw [expr_eq left _ first, mark, expr_eq right _ second]
  | .logical left _ right, _, .logical first mark second => by
    rw [expr_eq left _ first, mark, expr_eq right _ second]
  | .var _, _, .var named => by rw [named]
  | .assign _ value, _, .assign named same => by rw [named, expr_eq value _ same]
  | .call callee _ arguments, _, .call called mark given => by
    rw [expr_eq callee _ called, mark, exprs_eq arguments _ given]
  | .increment _ _, _, .increment named mark => by rw [named, mark]

theorem exprs_eq : (values others : List Expr) → List.Forall₂ (Expr.Like exact) values others →
    values = others
  | [], _, .nil => rfl
  | first :: rest, _, .cons same more => by rw [expr_eq first _ same, exprs_eq rest _ more]
end

theorem optional_eq {value other : Option Expr} (same : Option.Rel (Expr.Like exact) value other) :
    value = other := by
  cases same with
  | some same => rw [expr_eq _ _ same]
  | none => rfl

theorem tokens_eq {tokens others : List Token} (same : List.Forall₂ exact.names tokens others) :
    tokens = others :=
  List.forall₂_eq_eq_eq ▸ same

mutual
theorem stmt_eq : (statement other : Stmt) → statement.Like exact other → statement = other
  | .expression _, _, .expression same => by rw [expr_eq _ _ same]
  | .declare _ _, _, .declare named same => by rw [named, optional_eq same]
  | .block statements, _, .block same => by rw [stmts_eq statements _ same]
  | .branch _ consequent (some alternative), _, .branch tested same (.some otherwise) => by
    rw [expr_eq _ _ tested, stmt_eq consequent _ same, stmt_eq alternative _ otherwise]
  | .branch _ consequent none, _, .branch tested same .none => by
    rw [expr_eq _ _ tested, stmt_eq consequent _ same]
  | .loop _ body, _, .loop tested same => by rw [expr_eq _ _ tested, stmt_eq body _ same]
  | .function _ _ body, _, .function named given same => by
    rw [named, tokens_eq given, stmts_eq body _ same]
  | .ret _ _, _, .ret mark same => by rw [mark, optional_eq same]

theorem stmts_eq : (statements others : List Stmt) →
    List.Forall₂ (Stmt.Like exact) statements others → statements = others
  | [], _, .nil => rfl
  | first :: rest, _, .cons same more => by rw [stmt_eq first _ same, stmts_eq rest _ more]
end

end Likeness.exact

end TinyScript
