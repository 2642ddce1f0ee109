import TinyScript.Proofs.ExpressionRules

/-! Expressions as concrete trees, which keep every token that spells them, and the grammar that
says which of these trees are derivations. -/
namespace TinyScript

/-- A concrete expression. Parentheses, separators and equality signs stand in it where they stand
in the text. -/
inductive Phrase where
  | atom (token : Token)
  | group (opening : Token) (inner : Phrase) (closing : Token)
  | counted (counter : Phrase) (sign : Token)
  | call (callee : Phrase) (opening : Token) (arguments : List Phrase) (commas : List Token)
    (closing : Token)
  | signed (operator : Token) (right : Phrase)
  | joined (left : Phrase) (operator : Token) (right : Phrase)
  | assigned (name equals : Token) (value : Phrase)

/-- Token lists one after another with one separator between two of them. -/
def separated : List (List Token) → List Token → List Token
  | [], _ => []
  | [last], _ => last
  | first :: others, [] => first ++ separated others []
  | first :: others, comma :: commas => first ++ comma :: separated others commas

theorem separated_cons (first : List Token) (others : List (List Token)) (commas : List Token) :
    ∃ tail, separated (first :: others) commas = first ++ tail := by
  cases others with
  | nil => exact ⟨[], by simp [separated]⟩
  | cons second others => cases commas <;> exact ⟨_, rfl⟩

/-- The node for two operands around an operator. -/
def Expr.joined (left : Expr) (operator : Token) (right : Expr) : Expr :=
  match operator.kind with
  | .keyword _ => .logical left operator right
  | _ => .binary left operator right

theorem Level.join_eq_joined {level : Level} {operator : Token}
    (joins : level.joins operator.kind = true) (left right : Expr) :
    level.join left operator right = .joined left operator right := by
  cases level <;> cases kind : operator.kind <;> simp_all [Level.joins, Level.join, Expr.joined]

namespace Phrase

mutual
/-- The tokens that spell a phrase. -/
def tokens : Phrase → List Token
  | .atom token => [token]
  | .group opening inner closing => opening :: inner.tokens ++ [closing]
  | .counted counter sign => counter.tokens ++ [sign]
  | .call callee opening arguments commas closing =>
    callee.tokens ++ opening :: separated (tokenLists arguments) commas ++ [closing]
  | .signed operator right => operator :: right.tokens
  | .joined left operator right => left.tokens ++ operator :: right.tokens
  | .assigned name equals value => name :: equals :: value.tokens

def tokenLists : List Phrase → List (List Token)
  | [] => []
  | first :: others => first.tokens :: tokenLists others
end

mutual
/-- The expression that a phrase spells. -/
def expr : Phrase → Expr
  | .atom token => .ofAtom token
  | .group _ inner _ => .grouping inner.expr
  | .counted counter sign => (incremented counter.expr sign).1
  | .call callee _ arguments _ closing => .call callee.expr closing (exprs arguments)
  | .signed operator right => .unary operator right.expr
  | .joined left operator right => .joined left.expr operator right.expr
  | .assigned name _ value => .assign name value.expr

def exprs : List Phrase → List Expr
  | [] => []
  | first :: others => first.expr :: exprs others
end

theorem tokenLists_eq_map (phrases : List Phrase) : tokenLists phrases = phrases.map tokens := by
  induction phrases with
  | nil => rfl
  | cons first others ih => simp [tokenLists, ih]

theorem exprs_eq_map (phrases : List Phrase) : exprs phrases = phrases.map expr := by
  induction phrases with
  | nil => rfl
  | cons first others ih => simp [exprs, ih]

end Phrase

/-- The places in the grammar where an expression can stand, loosest first. -/
inductive Tier where
  | assignment
  | chain (level : Level)
  | unary
  | call
  | increment
  | primary
deriving DecidableEq

/-- Where the operands of a level stand. -/
def Level.operandTier (level : Level) : Tier :=
  match level.tighter? with
  | some next => .chain next
  | none => .unary

/-- The derivations of the expression grammar, one production a constructor. A repetition
`operand { operator operand }` is grouped to the left. What may be counted up or down is left to
`counter`. -/
inductive Phrase.Derives (counter : Phrase → Prop) : Tier → Phrase → Prop where
  /-- `assignment → IDENT "=" assignment`. -/
  | assigned {name equals : Token} {value : Phrase} (isName : name.kind = .identifier)
      (isAssign : equals.kind = .assign) (assigned : Derives counter .assignment value) :
      Derives counter .assignment (.assigned name equals value)
  /-- `assignment → or`. -/
  | chained {phrase : Phrase} (inner : Derives counter (.chain .disjunction) phrase) :
      Derives counter .assignment phrase
  /-- `or → or "or" and`, and likewise for the tighter levels. -/
  | joined {level : Level} {left right : Phrase} {operator : Token}
      (joins : level.joins operator.kind = true) (leftward : Derives counter (.chain level) left)
      (rightward : Derives counter level.operandTier right) :
      Derives counter (.chain level) (.joined left operator right)
  /-- `or → and`, and likewise for the tighter levels. -/
  | operand {level : Level} {phrase : Phrase} (inner : Derives counter level.operandTier phrase) :
      Derives counter (.chain level) phrase
  /-- `unary → ( "!" | "-" ) unary`. -/
  | signed {operator : Token} {right : Phrase} (sign : isSign operator.kind = true)
      (inner : Derives counter .unary right) : Derives counter .unary (.signed operator right)
  /-- `unary → call`. -/
  | unsigned {phrase : Phrase} (inner : Derives counter .call phrase) :
      Derives counter .unary phrase
  /-- `call → call "(" [ expression { "," expression } ] ")"`. -/
  | call {callee : Phrase} {opening closing : Token} {arguments : List Phrase} {commas : List Token}
      (called : Derives counter .call callee) (isOpening : opening.kind = .leftParen)
      (values : ∀ argument ∈ arguments, Derives counter .assignment argument)
      (between : commas.length = arguments.length - 1)
      (isComma : ∀ comma ∈ commas, comma.kind = .comma) (short : arguments.length < listLimit)
      (isClosing : closing.kind = .rightParen) :
      Derives counter .call (.call callee opening arguments commas closing)
  /-- `call → increment`. -/
  | uncalled {phrase : Phrase} (inner : Derives counter .increment phrase) :
      Derives counter .call phrase
  /-- `increment → primary ( "++" | "--" )`. -/
  | counted {target : Phrase} {sign : Token} (inner : Derives counter .primary target)
      (counts : counter target) (isCount : isIncrement sign.kind = true) :
      Derives counter .increment (.counted target sign)
  /-- `increment → primary`. -/
  | uncounted {phrase : Phrase} (inner : Derives counter .primary phrase) :
      Derives counter .increment phrase
  /-- `primary → "true" | "false" | "nil" | NUMBER | STRING | BYTES | IDENT`. -/
  | atom {token : Token} (atomic : isAtom token.kind = true) :
      Derives counter .primary (.atom token)
  /-- `primary → "(" expression ")"`. -/
  | group {opening closing : Token} {inner : Phrase} (isOpening : opening.kind = .leftParen)
      (grouped : Derives counter .assignment inner) (isClosing : closing.kind = .rightParen) :
      Derives counter .primary (.group opening inner closing)

/-- A unary expression is an operand of every level. -/
theorem Phrase.Derives.of_unary {counter : Phrase → Prop} {phrase : Phrase}
    (derives : Derives counter .unary phrase) (level : Level) :
    Derives counter (.chain level) phrase := by
  have factor : Derives counter (.chain .factor) phrase := .operand derives
  have term : Derives counter (.chain .term) phrase := .operand factor
  have comparison : Derives counter (.chain .comparison) phrase := .operand term
  have equality : Derives counter (.chain .equality) phrase := .operand comparison
  have conjunction : Derives counter (.chain .conjunction) phrase := .operand equality
  have disjunction : Derives counter (.chain .disjunction) phrase := .operand conjunction
  cases level with
  | disjunction => exact disjunction
  | conjunction => exact conjunction
  | equality => exact equality
  | comparison => exact comparison
  | term => exact term
  | factor => exact factor

theorem Phrase.Derives.of_increment {counter : Phrase → Prop} {phrase : Phrase}
    (derives : Derives counter .increment phrase) : Derives counter .assignment phrase :=
  .chained (.of_unary (.unsigned (.uncalled derives)) .disjunction)

/-- A phrase that is a single name. -/
def Phrase.IsName : Phrase → Prop
  | .atom token => token.kind = .identifier
  | _ => False

/-- Whether a phrase at the tier can start with a token of this kind. -/
def Tier.opensWith : Tier → TokenKind → Bool
  | .call, kind | .increment, kind | .primary, kind => isAtom kind || kind == .leftParen
  | _, kind => isAtom kind || kind == .leftParen || isSign kind

theorem Tier.opensWith_operandTier (level : Level) (kind : TokenKind) :
    level.operandTier.opensWith kind = (Tier.chain level).opensWith kind := by
  cases level <;> rfl

theorem Phrase.Derives.opens {counter : Phrase → Prop} {tier : Tier} {phrase : Phrase}
    (derives : Derives counter tier phrase) :
    ∃ first others, phrase.tokens = first :: others ∧ tier.opensWith first.kind = true := by
  induction derives with
  | chained _ ih => exact ih
  | operand _ ih => simpa only [Tier.opensWith_operandTier] using ih
  | unsigned _ ih =>
    obtain ⟨first, others, shape, opens⟩ := ih
    refine ⟨first, others, shape, ?_⟩
    simp_all [Tier.opensWith]
  | uncalled _ ih | uncounted _ ih => exact ih
  | assigned isName => exact ⟨_, _, rfl, by simp [Tier.opensWith, isName, isAtom]⟩
  | joined _ _ _ ih | call _ _ _ _ _ _ _ ih | counted _ _ _ ih =>
    obtain ⟨first, others, shape, opens⟩ := ih
    exact ⟨first, _, by rw [Phrase.tokens, shape]; rfl, opens⟩
  | signed sign => exact ⟨_, _, rfl, by simp [Tier.opensWith, sign]⟩
  | atom atomic => exact ⟨_, _, rfl, by simp [Tier.opensWith, atomic]⟩
  | group isOpening => exact ⟨_, _, rfl, by simp [Tier.opensWith, isOpening]⟩

end TinyScript
