import TinyScript.Proofs.Course
import TinyScript.Proofs.ExpressionRules
import TinyScript.Proofs.PhraseComplete

/-! The shape of parsed expressions: whatever the tokens, no rule of the expression grammar builds a
node with an operator of another kind or with an operand that binds too loosely for its place. -/
namespace TinyScript

/-- How loosely an operator joins two operands. Calls bind tighter than signs, and signs tighter than
every operator between operands; assignments are the loosest. -/
def TokenKind.looseness : TokenKind → Nat
  | .star | .slash => 3
  | .minus | .plus => 4
  | .less | .lessEqual | .greater | .greaterEqual => 5
  | .equal | .notEqual => 6
  | .keyword .andWord => 7
  | .keyword .orWord => 8
  | _ => 9

def TokenKind.isBinaryOperator : TokenKind → Bool
  | .equal | .notEqual | .less | .lessEqual | .greater | .greaterEqual => true
  | .plus | .minus | .star | .slash => true
  | _ => false

def TokenKind.isLogicalOperator : TokenKind → Bool
  | .keyword .andWord | .keyword .orWord => true
  | _ => false

namespace Expr

/-- How loosely the outermost node of an expression binds. -/
def looseness : Expr → Nat
  | .literal _ | .grouping _ | .var _ | .increment .. => 0
  | .call .. => 1
  | .unary .. => 2
  | .binary _ operator _ | .logical _ operator _ => operator.kind.looseness
  | .assign .. => 9

mutual
/-- Every operator is of a kind that belongs there, every name is an identifier, and every operand binds
tightly enough: on the left of an operator as tightly as the operator, on its right tighter. -/
def wellShaped : Expr → Bool
  | .literal _ => true
  | .grouping inner => inner.wellShaped
  | .unary operator right => isSign operator.kind && right.looseness ≤ 2 && right.wellShaped
  | .binary left operator right =>
    operator.kind.isBinaryOperator && left.looseness ≤ operator.kind.looseness &&
      right.looseness < operator.kind.looseness && left.wellShaped && right.wellShaped
  | .logical left operator right =>
    operator.kind.isLogicalOperator && left.looseness ≤ operator.kind.looseness &&
      right.looseness < operator.kind.looseness && left.wellShaped && right.wellShaped
  | .var name => name.kind == .identifier
  | .assign name value => name.kind == .identifier && value.wellShaped
  | .call callee _ arguments => callee.looseness ≤ 1 && callee.wellShaped && allWellShaped arguments
  | .increment name sign => name.kind == .identifier && isIncrement sign.kind

def allWellShaped : List Expr → Bool
  | [] => true
  | first :: others => first.wellShaped && allWellShaped others
end

mutual
/-- The tokens kept in an expression. -/
def tokens : Expr → List Token
  | .literal _ => []
  | .grouping inner => inner.tokens
  | .unary operator right => operator :: right.tokens
  | .binary left operator right | .logical left operator right =>
    left.tokens ++ operator :: right.tokens
  | .var name => [name]
  | .assign name value => name :: value.tokens
  | .call callee paren arguments => callee.tokens ++ paren :: allTokens arguments
  | .increment name sign => [name, sign]

def allTokens : List Expr → List Token
  | [] => []
  | first :: others => first.tokens ++ allTokens others
end

/-- A well-shaped expression over tokens of the source that binds no looser than the bound. -/
structure Fits (source : Token → Prop) (bound : Nat) (value : Expr) : Prop where
  shape : value.wellShaped = true
  binds : value.looseness ≤ bound
  known : ∀ token ∈ value.tokens, source token

end Expr

theorem Level.looseness_of_joins {level : Level} {kind : TokenKind}
    (joins : level.joins kind = true) : kind.looseness = level.rank + 3 := by
  unfold Level.joins at joins
  split at joins <;> first | rfl | cases joins

/-- Whether the operators of the level decide about their second operand. -/
def Level.isLogical : Level → Bool
  | .disjunction | .conjunction => true
  | _ => false

theorem Level.operator_of_joins {level : Level} {kind : TokenKind} (joins : level.joins kind = true) :
    kind.isLogicalOperator = level.isLogical ∧ kind.isBinaryOperator = !level.isLogical := by
  unfold Level.joins at joins
  split at joins <;> first | exact ⟨rfl, rfl⟩ | cases joins

namespace Expr.Fits

variable {source : Token → Prop} {bound looser : Nat} {left right value : Expr} {token : Token}

theorem loosen (fits : value.Fits source bound) (le : bound ≤ looser) : value.Fits source looser :=
  ⟨fits.shape, Nat.le_trans fits.binds le, fits.known⟩

theorem ofAtom (known : source token) : (ofAtom token).Fits source 0 := by
  unfold Expr.ofAtom
  split
  case h_4 isName => exact ⟨by simp [wellShaped, isName], Nat.le_refl _, by simpa [tokens] using known⟩
  all_goals exact ⟨rfl, Nat.le_refl _, by simp [tokens]⟩

theorem grouping (fits : value.Fits source 9) : (grouping value).Fits source 0 :=
  ⟨fits.shape, Nat.le_refl _, fits.known⟩

theorem unary (known : source token) (sign : isSign token.kind = true) (fits : right.Fits source 2) :
    (unary token right).Fits source 2 := by
  refine ⟨by simp [wellShaped, sign, fits.shape, fits.binds], Nat.le_refl _, ?_⟩
  simpa [tokens, known] using fits.known

theorem join {level : Level} (known : source token) (joins : level.joins token.kind = true)
    (first : left.Fits source (level.rank + 3)) (second : right.Fits source (level.rank + 2)) :
    (level.join left token right).Fits source (level.rank + 3) := by
  have kept : ∀ other ∈ left.tokens ++ token :: right.tokens, source other := by
    simp only [List.mem_append, List.mem_cons]
    rintro other (member | rfl | member)
    · exact first.known other member
    · exact known
    · exact second.known other member
  have looseness := Level.looseness_of_joins joins
  have leftward : left.looseness ≤ token.kind.looseness := looseness ▸ first.binds
  have rightward : right.looseness < token.kind.looseness :=
    looseness ▸ Nat.lt_succ_of_le second.binds
  cases level with
  | disjunction | conjunction =>
    have logical : token.kind.isLogicalOperator = true := (Level.operator_of_joins joins).1
    refine ⟨?_, Nat.le_of_eq looseness, kept⟩
    simp [Level.join, wellShaped, logical, leftward, rightward, first.shape, second.shape]
  | equality | comparison | term | factor =>
    have binary : token.kind.isBinaryOperator = true := (Level.operator_of_joins joins).2
    refine ⟨?_, Nat.le_of_eq looseness, kept⟩
    simp [Level.join, wellShaped, binary, leftward, rightward, first.shape, second.shape]

theorem call {arguments : List Expr} (called : value.Fits source 1) (known : source token)
    (given : ∀ argument ∈ arguments, argument.Fits source 9) :
    (call value token arguments).Fits source 1 := by
  have all : allWellShaped arguments = true ∧ ∀ other ∈ allTokens arguments, source other := by
    induction arguments with
    | nil => exact ⟨rfl, by simp [allTokens]⟩
    | cons first others ih =>
      obtain ⟨shape, kept⟩ := ih fun argument member => given argument (List.mem_cons_of_mem _ member)
      have fits := given first List.mem_cons_self
      refine ⟨by simp [allWellShaped, fits.shape, shape], ?_⟩
      intro other member
      rcases List.mem_append.1 member with early | late
      · exact fits.known other early
      · exact kept other late
  refine ⟨by simp [wellShaped, called.shape, called.binds, all.1], Nat.le_refl _, ?_⟩
  simp only [tokens, List.mem_append, List.mem_cons]
  rintro other (member | rfl | member)
  · exact called.known other member
  · exact known
  · exact all.2 other member

/-- A target that is no variable stands for the whole, with an error. -/
theorem assignment (target : left.Fits source 8) (given : value.Fits source 9) (known : source token) :
    (assignment left token value).1.Fits source 9 ∧
      SyntaxError.Noted source (·.stops = false) (assignment left token value).2 := by
  cases left with
  | var name =>
    have isName : name.kind = .identifier := by simpa [wellShaped] using target.shape
    have named : source name := target.known name List.mem_cons_self
    refine ⟨⟨by simp [TinyScript.assignment, wellShaped, isName, given.shape], Nat.le_refl _, ?_⟩, .nil⟩
    simpa [TinyScript.assignment, tokens, named] using given.known
  | _ => exact ⟨target.loosen (by decide), .one known rfl⟩

theorem incremented (target : value.Fits source 0) (known : source token)
    (sign : isIncrement token.kind = true) :
    (incremented value token).1.Fits source 0 ∧
      SyntaxError.Noted source (·.stops = false) (incremented value token).2 := by
  cases value with
  | var name =>
    have isName : name.kind = .identifier := by simpa [wellShaped] using target.shape
    have named : source name := target.known name List.mem_cons_self
    refine ⟨⟨by simp [TinyScript.incremented, wellShaped, isName, sign], Nat.le_refl _, ?_⟩, .nil⟩
    simp [TinyScript.incremented, tokens, named, known]
  | _ => exact ⟨target, .one known rfl⟩

end Expr.Fits

theorem SyntaxError.Noted.lengthErrors {source : Token → Prop} {cause : SyntaxCause}
    (mild : cause.stops = false) (count : Nat) {next : Token} (known : source next) :
    Noted source (·.stops = false) (lengthErrors cause count next) := by
  unfold TinyScript.lengthErrors
  split
  · exact .one known mild
  · exact .nil

namespace Grammar

variable {final final' : Token} {course : Course final final'}

mutual
/-- Each rule of the expression grammar gives a well-shaped expression of its own degree of binding
or stops at an error. Other errors are only noted. -/
theorem expression_fits (tokens : List Token) {tokens' : List Token}
    (ahead : course.ahead tokens tokens') :
    (expression final tokens).Abreast course (·.stops = false)
      (fun value _ => value.Fits course.source 9) (expression final' tokens') := by
  unfold expression
  refine (chain_fits .disjunction tokens ahead).bind ?_
  intro left rest rest' shorter shorter' target ahead
  obtain ⟨absent, absent'⟩ | ⟨equals, more, more', less, less', found, found', known, _, left⟩ :=
    course.take?_cases ahead (· == .assign) rfl
  · rw [absent, absent']
    exact .ok (target.loosen (by decide)) .nil ahead
  · rw [found, found']
    refine ((expression_fits more left).carry.behind _ _).bind ?_
    intro value rest rest' shorter shorter' given ahead
    obtain ⟨node, noted⟩ := target.assignment given known
    exact .ok node noted ahead
termination_by tokens.length * 20 + 16
decreasing_by
  · simp only [Level.rank]; omega
  · omega

theorem chain_fits (level : Level) (tokens : List Token) {tokens' : List Token}
    (ahead : course.ahead tokens tokens') :
    (chain final level tokens).Abreast course (·.stops = false)
      (fun value _ => value.Fits course.source (level.rank + 3)) (chain final' level tokens') := by
  unfold chain
  refine (operand_fits level tokens ahead).bind ?_
  intro left rest rest' shorter shorter' first ahead
  exact (chainRest_fits level (first.loosen (Nat.le_succ _)) rest ahead).lift _ _
termination_by tokens.length * 20 + 5 + 2 * level.rank
decreasing_by all_goals omega

theorem chainRest_fits (level : Level) {left : Expr} (first : left.Fits course.source (level.rank + 3))
    (tokens : List Token) {tokens' : List Token} (ahead : course.ahead tokens tokens') :
    (chainRest final level left tokens).Abreast course (·.stops = false)
      (fun value _ => value.Fits course.source (level.rank + 3))
      (chainRest final' level left tokens') := by
  unfold chainRest
  obtain ⟨absent, absent'⟩ | ⟨operator, more, more', less, less', found, found', known, joins, left⟩ :=
    course.take?_cases ahead level.joins (by cases level <;> rfl)
  · rw [absent, absent']
    exact .done first ahead
  · rw [found, found']
    refine ((operand_fits level more left).carry.bind ?_).weaken
    intro right rest rest' shorter shorter' second ahead
    exact (chainRest_fits level (first.join known joins second) rest ahead).lift _ _
termination_by tokens.length * 20
decreasing_by
  all_goals
    have := level.rank_le
    omega

theorem operand_fits (level : Level) (tokens : List Token) {tokens' : List Token}
    (ahead : course.ahead tokens tokens') :
    (operand final level tokens).Abreast course (·.stops = false)
      (fun value _ => value.Fits course.source (level.rank + 2)) (operand final' level tokens') := by
  cases tighter : level.tighter? with
  | some next =>
    have rank := Level.rank_of_tighter tighter
    rw [operand_eq_chain tighter, operand_eq_chain tighter, rank]
    exact chain_fits next tokens ahead
  | none =>
    obtain rfl := Level.eq_factor_of_tightest tighter
    rw [operand_factor, operand_factor]
    exact unary_fits tokens ahead
termination_by tokens.length * 20 + 4 + 2 * level.rank
decreasing_by all_goals omega

theorem unary_fits (tokens : List Token) {tokens' : List Token} (ahead : course.ahead tokens tokens') :
    (unary final tokens).Abreast course (·.stops = false) (fun value _ => value.Fits course.source 2)
      (unary final' tokens') := by
  unfold unary
  obtain ⟨absent, absent'⟩ | ⟨operator, more, more', less, less', found, found', known, sign, left⟩ :=
    course.take?_cases ahead isSign rfl
  · rw [absent, absent']
    exact (call_fits tokens ahead).imp fun value _ fits => fits.loosen (by decide)
  · rw [found, found']
    exact ((unary_fits more left).map fun right _ fits => .unary known sign fits).carry
termination_by tokens.length * 20 + 3
decreasing_by all_goals omega

theorem call_fits (tokens : List Token) {tokens' : List Token} (ahead : course.ahead tokens tokens') :
    (call final tokens).Abreast course (·.stops = false) (fun value _ => value.Fits course.source 1)
      (call final' tokens') := by
  unfold call
  refine (increment_fits tokens ahead).bind ?_
  intro callee rest rest' shorter shorter' called ahead
  exact (callRest_fits (called.loosen (by decide)) rest ahead).lift _ _
termination_by tokens.length * 20 + 2
decreasing_by all_goals omega

theorem callRest_fits {callee : Expr} (called : callee.Fits course.source 1) (tokens : List Token)
    {tokens' : List Token} (ahead : course.ahead tokens tokens') :
    (callRest final callee tokens).Abreast course (·.stops = false)
      (fun value _ => value.Fits course.source 1) (callRest final' callee tokens') := by
  unfold callRest
  obtain ⟨absent, absent'⟩ | ⟨opening, more, more', less, less', found, found', _, _, left⟩ :=
    course.take?_cases ahead (· == .leftParen) rfl
  · rw [absent, absent']
    exact .done called ahead
  · rw [found, found']
    refine (((arguments_fits more left).lift _ _).bind ?_).weaken
    intro values rest rest' shorter shorter' given ahead
    refine ((course.expect ahead (by decide) _).behind _ _).bind ?_
    intro closing rest rest' shorter shorter' closes ahead
    exact (callRest_fits (called.call closes.1 given) rest ahead).lift _ _
termination_by tokens.length * 20
decreasing_by all_goals omega

theorem arguments_fits (tokens : List Token) {tokens' : List Token}
    (ahead : course.ahead tokens tokens') :
    (arguments final tokens).Abreast course (·.stops = false)
      (fun values _ => ∀ value ∈ values, value.Fits course.source 9) (arguments final' tokens') := by
  unfold arguments
  rw [course.startsWith_eq ahead]
  split
  · exact .done (by simp) ahead
  · refine ((argumentList_fits tokens ahead).bind ?_).weaken
    intro values rest rest' shorter shorter' given ahead
    obtain ⟨same, known⟩ := course.current_eq ahead
    rw [← same]
    exact .ok given (.lengthErrors rfl _ known) ahead
termination_by tokens.length * 20 + 18
decreasing_by all_goals omega

theorem argumentList_fits (tokens : List Token) {tokens' : List Token}
    (ahead : course.ahead tokens tokens') :
    (argumentList final tokens).Abreast course (·.stops = false)
      (fun values _ => ∀ value ∈ values, value.Fits course.source 9)
      (argumentList final' tokens') := by
  unfold argumentList
  refine (expression_fits tokens ahead).bind ?_
  intro first rest rest' shorter shorter' given ahead
  obtain ⟨absent, absent'⟩ | ⟨comma, more, more', less, less', found, found', _, _, left⟩ :=
    course.take?_cases ahead (· == .comma) rfl
  · rw [absent, absent']
    exact .ok (by simpa using given) .nil ahead
  · rw [found, found']
    refine ((argumentList_fits more left).map ?_).carry.behind _ _
    intro others _ fits
    simpa using ⟨given, fits⟩
termination_by tokens.length * 20 + 17
decreasing_by all_goals omega

theorem increment_fits (tokens : List Token) {tokens' : List Token}
    (ahead : course.ahead tokens tokens') :
    (increment final tokens).Abreast course (·.stops = false)
      (fun value _ => value.Fits course.source 0) (increment final' tokens') := by
  unfold increment
  refine (primary_fits tokens ahead).bind ?_
  intro target rest rest' shorter shorter' counted ahead
  obtain ⟨absent, absent'⟩ | ⟨sign, more, more', less, less', found, found', known, isCount, left⟩ :=
    course.take?_cases ahead isIncrement rfl
  · rw [absent, absent']
    exact .ok counted .nil ahead
  · rw [found, found']
    obtain ⟨node, noted⟩ := counted.incremented known isCount
    exact .ok node noted left
termination_by tokens.length * 20 + 1
decreasing_by all_goals omega

theorem primary_fits (tokens : List Token) {tokens' : List Token}
    (ahead : course.ahead tokens tokens') :
    (primary final tokens).Abreast course (·.stops = false)
      (fun value _ => value.Fits course.source 0) (primary final' tokens') := by
  rcases course.look ahead with ⟨rfl, rfl, same, known⟩ |
    ⟨token, rest, rest', first, first', known, onwards⟩
  · subst same
    unfold primary
    exact .fail ⟨known, rfl⟩ .nil ahead
  · have smaller : rest.length < tokens.length := by simp [first]
    subst first first'
    cases atomic : isAtom token.kind with
    | true =>
      have plain : token.kind ≠ .semicolon := by rintro isStop; simp [isStop, isAtom] at atomic
      rw [primary_atom atomic, primary_atom atomic]
      exact .done (.ofAtom known) (onwards plain)
    | false =>
      by_cases grouped : token.kind = .leftParen
      · rw [primary_group grouped, primary_group grouped]
        refine ((expression_fits rest (onwards (by simp [grouped]))).andThen ?_).weaken
        intro inner rest rest' given ahead
        exact (course.expect ahead (by decide) _).map fun _ _ _ => given.grouping
      · rw [primary_other atomic grouped, primary_other atomic grouped]
        exact .fail ⟨known, rfl⟩ .nil ahead
termination_by tokens.length * 20
decreasing_by omega
end

end Grammar

end TinyScript
