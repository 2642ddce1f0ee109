import TinyScript.Proofs.Phrase
import TinyScript.Proofs.StatementRules

/-! Statements and declarations as concrete trees, and the grammar that says which of them are
derivations. `for` and `print` have trees of their own here; `stmt` spells them out. -/
namespace TinyScript

/-- `"var" IDENT [ "=" expression ] ";"`. -/
structure VariableTree where
  keyword : Token
  name : Token
  initial : Option (Token × Phrase)
  semicolon : Token

/-- What a `for` loop starts with, up to and including the first semicolon. -/
inductive ForStart where
  | absent (semicolon : Token)
  | declare (tree : VariableTree)
  | expression (value : Phrase) (semicolon : Token)

/-- `"for" "(" start [ expression ] ";" [ expression ] ")"`. -/
structure ForTree where
  keyword : Token
  opening : Token
  start : ForStart
  condition : Option Phrase
  semicolon : Token
  increment : Option Phrase
  closing : Token

/-- `"fun" IDENT "(" [ IDENT { "," IDENT } ] ")" "{"`. -/
structure FunctionTree where
  keyword : Token
  name : Token
  opening : Token
  parameters : List Token
  commas : List Token
  closing : Token
  brace : Token

/-- `"if" "(" expression ")"`, or the same with `while`. -/
structure ConditionTree where
  keyword : Token
  opening : Token
  value : Phrase
  closing : Token

/-- A concrete declaration or statement. -/
inductive Sentence where
  | declare (tree : VariableTree)
  | function (head : FunctionTree) (body : List Sentence) (closing : Token)
  | expression (value : Phrase) (semicolon : Token)
  | print (keyword : Token) (value : Phrase) (semicolon : Token)
  | ret (keyword : Token) (value : Option Phrase) (semicolon : Token)
  | block (opening : Token) (body : List Sentence) (closing : Token)
  | branch (head : ConditionTree) (consequent : Sentence)
  | choice (head : ConditionTree) (consequent : Sentence) (otherwise : Token)
    (alternative : Sentence)
  | loop (head : ConditionTree) (body : Sentence)
  | forLoop (head : ForTree) (body : Sentence)

/-- The tokens of a phrase that may be missing. -/
def optionalTokens : Option Phrase → List Token
  | none => []
  | some phrase => phrase.tokens

namespace VariableTree

def tokens (tree : VariableTree) : List Token :=
  tree.keyword :: tree.name ::
    match tree.initial with
    | none => [tree.semicolon]
    | some (equals, value) => equals :: value.tokens ++ [tree.semicolon]

def stmt (tree : VariableTree) : Stmt :=
  .declare tree.name (tree.initial.map fun (_, value) => value.expr)

end VariableTree

namespace ForStart

def tokens : ForStart → List Token
  | absent semicolon => [semicolon]
  | declare tree => tree.tokens
  | expression value semicolon => value.tokens ++ [semicolon]

def stmt? : ForStart → Option Stmt
  | absent _ => none
  | declare tree => some tree.stmt
  | expression value _ => some (.expression value.expr)

end ForStart

namespace ForTree

def tokens (tree : ForTree) : List Token :=
  tree.keyword :: tree.opening :: tree.start.tokens ++ optionalTokens tree.condition ++
    tree.semicolon :: optionalTokens tree.increment ++ [tree.closing]

def header (tree : ForTree) : ForHeader :=
  ⟨tree.start.stmt?, tree.condition.map Phrase.expr, tree.increment.map Phrase.expr⟩

end ForTree

def FunctionTree.tokens (tree : FunctionTree) : List Token :=
  tree.keyword :: tree.name :: tree.opening ::
    separated (tree.parameters.map ([·])) tree.commas ++ [tree.closing, tree.brace]

def ConditionTree.tokens (tree : ConditionTree) : List Token :=
  tree.keyword :: tree.opening :: tree.value.tokens ++ [tree.closing]

namespace Sentence

mutual
/-- The tokens that spell a sentence. -/
def tokens : Sentence → List Token
  | .declare tree => tree.tokens
  | .function head body closing => head.tokens ++ allTokens body ++ [closing]
  | .expression value semicolon => value.tokens ++ [semicolon]
  | .print keyword value semicolon => keyword :: value.tokens ++ [semicolon]
  | .ret keyword value semicolon => keyword :: optionalTokens value ++ [semicolon]
  | .block opening body closing => opening :: allTokens body ++ [closing]
  | .branch head consequent => head.tokens ++ consequent.tokens
  | .choice head consequent otherwise alternative =>
    head.tokens ++ consequent.tokens ++ otherwise :: alternative.tokens
  | .loop head body => head.tokens ++ body.tokens
  | .forLoop head body => head.tokens ++ body.tokens

def allTokens : List Sentence → List Token
  | [] => []
  | first :: others => first.tokens ++ allTokens others
end

mutual
/-- The statement that a sentence spells. -/
def stmt : Sentence → Stmt
  | .declare tree => tree.stmt
  | .function head body _ => .function head.name head.parameters (stmts body)
  | .expression value _ => .expression value.expr
  | .print keyword value semicolon => printStatement keyword value.expr semicolon
  | .ret keyword value _ => .ret keyword (value.map Phrase.expr)
  | .block _ body _ => .block (stmts body)
  | .branch head consequent => .branch head.value.expr consequent.stmt none
  | .choice head consequent _ alternative =>
    .branch head.value.expr consequent.stmt (some alternative.stmt)
  | .loop head body => .loop head.value.expr body.stmt
  | .forLoop head body => head.header.loop body.stmt

def stmts : List Sentence → List Stmt
  | [] => []
  | first :: others => first.stmt :: stmts others
end

/-- Whether an `else` behind the sentence would belong to an `if` inside it. -/
def takesElse : Sentence → Bool
  | .branch .. => true
  | .choice _ _ _ alternative => alternative.takesElse
  | .loop _ body | .forLoop _ body => body.takesElse
  | _ => false

end Sentence

/-- Whether a statement with these tokens is a print statement. There are such statements only if
`printing` says so. -/
def opensPrint (printing : Bool) : List Token → Bool
  | [] => false
  | first :: rest => printing && startsPrint first rest

/-- Two tokens decide whether a statement prints. -/
theorem opensPrint_false (tokens : List Token) : opensPrint false tokens = false := by
  cases tokens <;> rfl

theorem opensPrint_append {printing : Bool} {front : List Token} (long : 2 ≤ front.length)
    (rest : List Token) : opensPrint printing (front ++ rest) = opensPrint printing front := by
  match front, long with
  | first :: second :: others, _ => rfl

section Derivations

variable (counter : Phrase → Prop) (printing : Bool)

/-- `variable → "var" IDENT [ "=" expression ] ";"`. -/
structure VariableTree.Derives (tree : VariableTree) : Prop where
  isVar : tree.keyword.kind = .keyword .varWord
  isName : tree.name.kind = .identifier
  initial : ∀ equals value, tree.initial = some (equals, value) →
    equals.kind = .assign ∧ Phrase.Derives counter .assignment value
  closed : tree.semicolon.kind = .semicolon

/-- What may stand first in the parentheses of a `for` loop. An expression there is no statement,
so that `print` is an ordinary name in it. -/
inductive ForStart.Derives : ForStart → Prop where
  | absent {semicolon : Token} (closed : semicolon.kind = .semicolon) :
      ForStart.Derives (.absent semicolon)
  | declare {tree : VariableTree} (declares : tree.Derives counter) :
      ForStart.Derives (.declare tree)
  | expression {value : Phrase} {semicolon : Token}
      (evaluates : Phrase.Derives counter .assignment value)
      (closed : semicolon.kind = .semicolon) : ForStart.Derives (.expression value semicolon)

/-- `"for" "(" start [ expression ] ";" [ expression ] ")"`. -/
structure ForTree.Derives (tree : ForTree) : Prop where
  isFor : tree.keyword.kind = .keyword .forWord
  opened : tree.opening.kind = .leftParen
  begins : tree.start.Derives counter
  condition : ∀ value, tree.condition = some value → Phrase.Derives counter .assignment value
  divided : tree.semicolon.kind = .semicolon
  increment : ∀ value, tree.increment = some value → Phrase.Derives counter .assignment value
  closed : tree.closing.kind = .rightParen

/-- `"fun" IDENT "(" [ IDENT { "," IDENT } ] ")" "{"`, with fewer than 255 parameters. -/
structure FunctionTree.Derives (tree : FunctionTree) : Prop where
  isFun : tree.keyword.kind = .keyword .funWord
  isName : tree.name.kind = .identifier
  opened : tree.opening.kind = .leftParen
  names : ∀ parameter ∈ tree.parameters, parameter.kind = .identifier
  between : tree.commas.length = tree.parameters.length - 1
  isComma : ∀ comma ∈ tree.commas, comma.kind = .comma
  short : tree.parameters.length < listLimit
  closed : tree.closing.kind = .rightParen
  braced : tree.brace.kind = .leftBrace

/-- A keyword with a condition in parentheses. -/
structure ConditionTree.Derives (word : Keyword) (tree : ConditionTree) : Prop where
  isWord : tree.keyword.kind = .keyword word
  opened : tree.opening.kind = .leftParen
  condition : Phrase.Derives counter .assignment tree.value
  closed : tree.closing.kind = .rightParen

/-- The two places where sentences stand: among declarations, or as the body of another one. -/
inductive Slot where
  | declaration
  | statement
deriving DecidableEq

/-- The derivations of the statement grammar, one production a constructor. An `else` belongs to
the nearest `if`. In a grammar with print statements, `print` starts one unless a parenthesis
follows. -/
inductive Sentence.Derives : Slot → Sentence → Prop where
  /-- `declaration → variable`. -/
  | declare {tree : VariableTree} (declares : tree.Derives counter) :
      Derives .declaration (.declare tree)
  /-- `declaration → "fun" IDENT "(" parameters ")" "{" { declaration } "}"`. -/
  | function {head : FunctionTree} {body : List Sentence} {closing : Token} (heads : head.Derives)
      (inner : ∀ sentence ∈ body, Derives .declaration sentence)
      (closed : closing.kind = .rightBrace) : Derives .declaration (.function head body closing)
  /-- `declaration → statement`. -/
  | statement {sentence : Sentence} (inner : Derives .statement sentence) :
      Derives .declaration sentence
  /-- `statement → expression ";"`. -/
  | expression {value : Phrase} {semicolon : Token}
      (evaluates : Phrase.Derives counter .assignment value)
      (closed : semicolon.kind = .semicolon)
      (silent : opensPrint printing (value.tokens ++ [semicolon]) = false) :
      Derives .statement (.expression value semicolon)
  /-- `statement → "print" expression ";"`. -/
  | print {keyword semicolon : Token} {value : Phrase}
      (evaluates : Phrase.Derives counter .assignment value)
      (closed : semicolon.kind = .semicolon)
      (prints : opensPrint printing (keyword :: value.tokens ++ [semicolon]) = true) :
      Derives .statement (.print keyword value semicolon)
  /-- `statement → "return" [ expression ] ";"`. -/
  | ret {keyword semicolon : Token} {value : Option Phrase}
      (isReturn : keyword.kind = .keyword .returnWord)
      (evaluates : ∀ present, value = some present → Phrase.Derives counter .assignment present)
      (closed : semicolon.kind = .semicolon) : Derives .statement (.ret keyword value semicolon)
  /-- `statement → "{" { declaration } "}"`. -/
  | block {opening closing : Token} {body : List Sentence} (opened : opening.kind = .leftBrace)
      (inner : ∀ sentence ∈ body, Derives .declaration sentence)
      (closed : closing.kind = .rightBrace) : Derives .statement (.block opening body closing)
  /-- `statement → "if" "(" expression ")" statement`. -/
  | branch {head : ConditionTree} {consequent : Sentence} (heads : head.Derives counter .ifWord)
      (inner : Derives .statement consequent) : Derives .statement (.branch head consequent)
  /-- `statement → "if" "(" expression ")" statement "else" statement`. -/
  | choice {head : ConditionTree} {consequent alternative : Sentence} {otherwise : Token}
      (heads : head.Derives counter .ifWord) (inner : Derives .statement consequent)
      (nearest : consequent.takesElse = false) (isElse : otherwise.kind = .keyword .elseWord)
      (last : Derives .statement alternative) :
      Derives .statement (.choice head consequent otherwise alternative)
  /-- `statement → "while" "(" expression ")" statement`. -/
  | loop {head : ConditionTree} {body : Sentence} (heads : head.Derives counter .whileWord)
      (inner : Derives .statement body) : Derives .statement (.loop head body)
  /-- `statement → "for" "(" start [ expression ] ";" [ expression ] ")" statement`. -/
  | forLoop {head : ForTree} {body : Sentence} (heads : head.Derives counter)
      (inner : Derives .statement body) : Derives .statement (.forLoop head body)

end Derivations

/-- Whether a sentence at the place can start with a token of this kind. -/
def Slot.opensWith : Slot → TokenKind → Bool
  | .declaration, kind =>
    kind == .keyword .varWord || kind == .keyword .funWord || Grammar.opensStatement kind ||
      Tier.assignment.opensWith kind
  | .statement, kind => Grammar.opensStatement kind || Tier.assignment.opensWith kind

/-- The kind of the first token of a print statement. -/
theorem isName_of_opensPrint {printing : Bool} {first : Token} {rest : List Token}
    (prints : opensPrint printing (first :: rest) = true) : first.kind = .identifier := by
  simp only [opensPrint, startsPrint, Bool.and_eq_true, beq_iff_eq] at prints
  exact prints.2.1.1

theorem Sentence.Derives.opens {counter : Phrase → Prop} {printing : Bool} {slot : Slot}
    {sentence : Sentence} (derives : Derives counter printing slot sentence) :
    ∃ first others, sentence.tokens = first :: others ∧ slot.opensWith first.kind = true := by
  induction derives with
  | declare declares =>
    exact ⟨_, _, rfl, by simp [Slot.opensWith, declares.isVar]⟩
  | function heads =>
    exact ⟨_, _, rfl, by simp [Slot.opensWith, heads.isFun]⟩
  | statement _ ih =>
    obtain ⟨first, others, shape, opens⟩ := ih
    refine ⟨first, others, shape, ?_⟩
    simp only [Slot.opensWith, Bool.or_eq_true] at opens ⊢
    exact opens.imp_left .inr
  | expression evaluates =>
    obtain ⟨first, others, shape, opens⟩ := evaluates.opens
    refine ⟨first, _, by rw [tokens, shape]; rfl, by simp [Slot.opensWith, opens]⟩
  | print _ _ prints =>
    have isName := isName_of_opensPrint prints
    exact ⟨_, _, rfl, by simp [Slot.opensWith, Tier.opensWith, isAtom, isName]⟩
  | ret isReturn =>
    exact ⟨_, _, rfl, by simp [Slot.opensWith, Grammar.opensStatement, isReturn]⟩
  | block opened =>
    exact ⟨_, _, rfl, by simp [Slot.opensWith, Grammar.opensStatement, opened]⟩
  | branch heads | choice heads | loop heads =>
    exact ⟨_, _, rfl, by simp [Slot.opensWith, Grammar.opensStatement, heads.isWord]⟩
  | forLoop heads =>
    exact ⟨_, _, rfl, by simp [Slot.opensWith, Grammar.opensStatement, heads.isFor]⟩

end TinyScript
