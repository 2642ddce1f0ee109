import TinyScript.Syntax.Error

/-! Parse steps. A rule of the grammar takes a token list without its end token and gives a tree
and the tokens behind it, or the error that stopped it. Either way it may have noted errors that
did not stop it. Each outcome carries how much of the input is left, so rules that call each
other can be seen to end. -/
namespace TinyScript

/-- The outcome of a rule whose input has at most `limit` tokens: success leaves fewer than
`limit` of them, failure at most `limit`. -/
inductive Step (limit : Nat) (α : Type) where
  | ok (value : α) (noted : List SyntaxError) (rest : List Token) (shorter : rest.length < limit)
  | fail (error : SyntaxError) (noted : List SyntaxError) (rest : List Token)
    (within : rest.length ≤ limit)

namespace Step

variable {limit larger : Nat} {α β : Type}

/-- The same outcome seen from a longer input. -/
def lift (le : limit ≤ larger) : Step limit α → Step larger α
  | ok value noted rest shorter => ok value noted rest (Nat.lt_of_lt_of_le shorter le)
  | fail error noted rest within => fail error noted rest (Nat.le_trans within le)

/-- The same outcome seen from a list with one more token. -/
def weaken (step : Step limit α) : Step (limit + 1) α := step.lift (Nat.le_succ limit)

/-- The outcome of a rule on what an earlier rule left. -/
def behind {rest : List Token} (shorter : rest.length < limit) (step : Step rest.length α) :
    Step limit α :=
  step.lift (Nat.le_of_lt shorter)

/-- Goes on with the value and the tokens left. Errors noted on both sides are kept in order. -/
def bind (step : Step limit α)
    (next : α → (rest : List Token) → rest.length < limit → Step limit β) : Step limit β :=
  match step with
  | fail error noted rest within => fail error noted rest within
  | ok value noted rest shorter =>
    match next value rest shorter with
    | ok result more rest shorter => ok result (noted ++ more) rest shorter
    | fail error more rest within => fail error (noted ++ more) rest within

/-- Success with `value` in front of `rest`, seen from a list with one more token. -/
def done (value : α) (rest : List Token) : Step (rest.length + 1) α :=
  ok value [] rest (Nat.lt_succ_self _)

def map (step : Step limit α) (change : α → β) : Step limit β :=
  step.bind fun value rest shorter => ok (change value) [] rest shorter

/-- Goes on with a rule that takes at least one token. -/
def andThen (step : Step limit α) (next : α → (rest : List Token) → Step rest.length β) :
    Step limit β :=
  step.bind fun value rest shorter => (next value rest).behind shorter

/-- Goes on with a rule that may take no token. -/
def andOptional (step : Step limit α) (next : α → (rest : List Token) → Step (rest.length + 1) β) :
    Step limit β :=
  step.bind fun value rest shorter => (next value rest).lift shorter

end Step

/-- A token taken from the head of a list. -/
structure Taken (tokens : List Token) where
  token : Token
  rest : List Token
  shorter : rest.length < tokens.length

/-- The outcome of a rule on the tokens behind the taken one. -/
def Taken.carry {tokens : List Token} (taken : Taken tokens) {α : Type}
    (step : Step taken.rest.length α) : Step tokens.length α :=
  step.behind taken.shorter

/-- Takes the first token if its kind is wanted. -/
def take? (wanted : TokenKind → Bool) : (tokens : List Token) → Option (Taken tokens)
  | [] => none
  | token :: rest => if wanted token.kind then some ⟨token, rest, Nat.lt_succ_self _⟩ else none

/-- Whether the first token has the given kind. -/
def startsWith (kind : TokenKind) : List Token → Bool
  | [] => false
  | token :: _ => token.kind == kind

/-- The first token, or the end token behind the last one. -/
def current (final : Token) : List Token → Token
  | [] => final
  | token :: _ => token

/-- Takes a token of the given kind, or fails at the token that stands there. -/
def expect (final : Token) (kind : TokenKind) (what : String) (tokens : List Token) :
    Step tokens.length Token :=
  match take? (· == kind) tokens with
  | some taken => .ok taken.token [] taken.rest taken.shorter
  | none => .fail ⟨.expected what, current final tokens⟩ [] tokens (Nat.le_refl _)

end TinyScript
