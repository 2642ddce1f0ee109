import TinyScript.Text.Bytes

/-! Tokens: their kinds, the values of literals and where they stand in the source. -/
namespace TinyScript

/-- Byte offsets of a piece of source text; `stop` is exclusive. -/
structure Span where
  start : Nat
  stop : Nat
deriving DecidableEq, Inhabited

/-- Reserved words. -/
inductive Keyword where
  | varWord | funWord | classWord | superWord | thisWord | nilWord | orWord | andWord
  | ifWord | elseWord | trueWord | falseWord | forWord | whileWord | returnWord
deriving DecidableEq, Inhabited

namespace Keyword

def text : Keyword → String
  | varWord => "var"
  | funWord => "fun"
  | classWord => "class"
  | superWord => "super"
  | thisWord => "this"
  | nilWord => "nil"
  | orWord => "or"
  | andWord => "and"
  | ifWord => "if"
  | elseWord => "else"
  | trueWord => "true"
  | falseWord => "false"
  | forWord => "for"
  | whileWord => "while"
  | returnWord => "return"

def all : List Keyword :=
  [varWord, funWord, classWord, superWord, thisWord, nilWord, orWord, andWord, ifWord, elseWord,
   trueWord, falseWord, forWord, whileWord, returnWord]

def ofText? (word : String) : Option Keyword := all.find? fun keyword => keyword.text == word

end Keyword

/-- What sort of thing a token is. Scanning yields every kind but `illegal`, which stands for
malformed text in token listings. -/
inductive TokenKind where
  | leftParen | rightParen | leftBrace | rightBrace | leftBracket | rightBracket
  | comma | dot | semicolon
  | plus | minus | star | slash | bang | assign | increment | decrement
  | equal | notEqual | less | lessEqual | greater | greaterEqual
  | identifier | string | number | bytes
  | keyword (word : Keyword)
  | endOfInput | illegal
deriving DecidableEq, Inhabited

namespace TokenKind

/-- The spelling of a fixed token, a description of any other. -/
def description : TokenKind → String
  | leftParen => "("
  | rightParen => ")"
  | leftBrace => "\x7b"
  | rightBrace => "\x7d"
  | leftBracket => "["
  | rightBracket => "]"
  | comma => ","
  | dot => "."
  | semicolon => ";"
  | plus => "+"
  | minus => "-"
  | star => "*"
  | slash => "/"
  | bang => "!"
  | assign => "="
  | increment => "++"
  | decrement => "--"
  | equal => "=="
  | notEqual => "!="
  | less => "<"
  | lessEqual => "<="
  | greater => ">"
  | greaterEqual => ">="
  | identifier => "identifier"
  | string => "string"
  | number => "number"
  | bytes => "byte string"
  | keyword word => word.text
  | endOfInput => "end of file"
  | illegal => "illegal"

/-- The name of the kind in token listings. -/
def name : TokenKind → String
  | leftParen => "LPAREN"
  | rightParen => "RPAREN"
  | leftBrace => "LBRACE"
  | rightBrace => "RBRACE"
  | leftBracket => "LBRACKET"
  | rightBracket => "RBRACKET"
  | comma => "COMMA"
  | dot => "DOT"
  | semicolon => "SEMICOLON"
  | plus => "PLUS"
  | minus => "MINUS"
  | star => "STAR"
  | slash => "SLASH"
  | bang => "BANG"
  | assign => "ASSIGN"
  | increment => "INCREMENT"
  | decrement => "DECREMENT"
  | equal => "EQ"
  | notEqual => "NOT_EQ"
  | less => "LT"
  | lessEqual => "LE"
  | greater => "GT"
  | greaterEqual => "GE"
  | identifier => "IDENT"
  | string => "STRING"
  | number => "NUMBER"
  | bytes => "BYTES"
  | keyword word => word.text.map Char.toUpper
  | endOfInput => "EOF"
  | illegal => "ILLEGAL"

/-- Whether recovery from a syntax error stops in front of this kind. -/
def startsStatement : TokenKind → Bool
  | keyword .classWord | keyword .funWord | keyword .varWord | keyword .forWord
  | keyword .ifWord | keyword .whileWord | keyword .returnWord => true
  | _ => false

def isReserved : TokenKind → Bool
  | keyword _ => true
  | _ => false

end TokenKind

/-- The largest integer. -/
def largestInt : Nat := 0x7FFFFFFFFFFFFFFF

/-- The decoded value of a literal token. -/
inductive Literal where
  | int (value : Int64)
  | string (value : String)
  | bytes (value : List UInt8)
deriving DecidableEq

def Literal.text : Literal → String
  | int value => toString value.toInt
  | string value => value
  | bytes value => Text.hexOfBytes value

/-- Lines are counted from 1, in 32 bits. -/
structure Token where
  kind : TokenKind
  lexeme : String
  literal : Option Literal := none
  line : UInt32
  span : Span
deriving DecidableEq, Inhabited

namespace Token

/-- A token without source text of its own, placed where `place` stands. -/
def synthetic (kind : TokenKind) (lexeme : String) (place : Token) : Token :=
  { kind, lexeme, line := place.line, span := place.span }

/-- The token as token listings show it. -/
def text (token : Token) : String :=
  token.kind.name ++ " " ++ token.lexeme ++
    match token.literal with
    | some literal => " " ++ literal.text
    | none => ""

end Token

end TinyScript
