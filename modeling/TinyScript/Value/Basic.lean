import TinyScript.Syntax.Basic

/-! Values of running programs. Functions compare by identity; all else compares by content. -/
namespace TinyScript

/-- The number of a scope, in order of creation. -/
abbrev ScopeId := Nat

/-- Functions that every program starts with. -/
inductive Native where
  | clock | print | println | inHex
deriving DecidableEq

/-- How many arguments a function takes. -/
inductive Arity where
  | fixed (count : Nat)
  | variadic
deriving DecidableEq

namespace Native

def name : Native → String
  | clock => "clock"
  | print => "print"
  | println => "println"
  | inHex => "inHex"

def arity : Native → Arity
  | clock => .fixed 0
  | print | println | inHex => .variadic

def all : List Native := [clock, print, println, inHex]

end Native

/-- A function of the program with the scope it was declared in. -/
structure Function where
  name : Token
  parameters : List Token
  body : List Stmt
  closure : ScopeId

/-- What a call runs. -/
inductive Routine where
  | builtIn (builtin : Native)
  | declared (function : Function)

namespace Routine

def name : Routine → String
  | builtIn builtin => builtin.name
  | declared function => function.name.lexeme

def arity : Routine → Arity
  | builtIn builtin => builtin.arity
  | declared function => .fixed function.parameters.length

def text : Routine → String
  | builtIn builtin => "<native fn " ++ builtin.name ++ ">"
  | declared function => "<fn " ++ function.name.lexeme ++ ">"

/-- The routine with its name and the number of its arguments, for debugging. -/
def debugText : Routine → String
  | builtIn builtin =>
    let arity :=
      match builtin.arity with
      | .fixed count => "Fixed(" ++ toString count ++ ")"
      | .variadic => "Variadic"
    "NativeFunction \x7b name: \"" ++ builtin.name ++ "\", arity: " ++ arity ++ " \x7d"
  | declared function =>
    "Function \x7b name: \"" ++ function.name.lexeme ++ "\", arity: " ++
      toString function.parameters.length ++ ", .. \x7d"

end Routine

/-- A routine that can be stored and called. Copies share the identity. -/
structure Callable where
  identity : Nat
  routine : Routine

inductive Value where
  | nil
  | bool (value : Bool)
  | int (value : Int64)
  | string (value : String)
  | bytes (value : List UInt8)
  | callable (value : Callable)

namespace Value

def ofPrimitive : Primitive → Value
  | .nil => nil
  | .bool value => bool value
  | .int value => int value
  | .string value => string value
  | .bytes value => bytes value

/-- `nil` and `false` count as false, everything else as true. -/
def isTruthy : Value → Bool
  | nil | bool false => false
  | _ => true

def same : Value → Value → Bool
  | nil, nil => true
  | bool left, bool right => left == right
  | int left, int right => left == right
  | string left, string right => left == right
  | bytes left, bytes right => left == right
  | callable left, callable right => left.identity == right.identity
  | _, _ => false

def text : Value → String
  | nil => "nil"
  | bool true => "true"
  | bool false => "false"
  | int value => toString value.toInt
  | string value => value
  | bytes value => "'" ++ Text.hexOfBytes value ++ "'"
  | callable value => value.routine.text

end Value

end TinyScript
