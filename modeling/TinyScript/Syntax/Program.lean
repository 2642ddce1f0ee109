import TinyScript.Syntax.Printer
import TinyScript.Syntax.Statement
import TinyScript.Token.Scanner

/-! Programs read from streams of items. Malformed text is set aside, tokens count up to the first
end token, and a stream without one gets an end token of its own. -/
namespace TinyScript

/-- A program with all that was wrong with its text. Statements that failed are left out. -/
structure Parsed where
  statements : List Stmt
  errors : List SyntaxError
  lexicalErrors : List LexicalError

namespace Parsed

def hasErrors (parsed : Parsed) : Bool :=
  !parsed.errors.isEmpty || !parsed.lexicalErrors.isEmpty

def text (parsed : Parsed) : String := programText parsed.statements

end Parsed

/-- A stream of items sorted for parsing: the tokens in front of the first end token, that end
token, the errors in front of it and the items behind it. -/
structure Feed where
  tokens : List Token
  final? : Option Token
  errors : List LexicalError
  unread : List Item

namespace Feed

def ofItems : List Item → Feed
  | [] => ⟨[], none, [], []⟩
  | .error error :: items =>
    let feed := ofItems items
    { feed with errors := error :: feed.errors }
  | .ok token :: items =>
    if token.kind = .endOfInput then ⟨[], some token, [], items⟩
    else
      let feed := ofItems items
      { feed with tokens := token :: feed.tokens }

/-- The end token for tokens that come without one. Parsing looks two tokens ahead, so of `count`
tokens the one numbered `count - 2`, or the first, has been passed when the end shows; the made-up
token stands behind that one. -/
def madeUpEnd (tokens : List Token) : Token :=
  match tokens[tokens.length - 3]? with
  | some token =>
    { kind := .endOfInput, lexeme := "", line := token.line
      span := ⟨token.span.stop, token.span.stop⟩ }
  | none => { kind := .endOfInput, lexeme := "", line := 1, span := ⟨0, 0⟩ }

def final (feed : Feed) : Token := feed.final?.getD (madeUpEnd feed.tokens)

end Feed

/-- Parses a whole stream of items. -/
def parseItems (items : List Item) : Parsed :=
  let feed := Feed.ofItems items
  let program := Grammar.declarations feed.final false feed.tokens
  ⟨program.statements, program.errors, feed.errors⟩

/-- Parses a list of tokens. -/
def parseTokens (tokens : List Token) : Parsed := parseItems (tokens.map .ok)

/-- Parses a source text. -/
def parse (source : String) : Parsed := parseItems (scan source)

/-- Parses the expression at the head of a source text. What follows it is ignored, and so are
malformed text and errors that do not stop the parse. -/
def parseExpression (source : String) : Except SyntaxError Expr :=
  let feed := Feed.ofItems (scan source)
  match Grammar.expression feed.final feed.tokens with
  | .ok value _ _ _ => .ok value
  | .fail error _ _ _ => .error error

end TinyScript
