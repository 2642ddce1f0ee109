import TinyScript.Proofs.ExpressionRules
import TinyScript.Proofs.LikeStep

/-! Token lists that correspond token by token have like expressions at their head, with
corresponding errors at corresponding places. -/
namespace TinyScript

variable {same : Correspondence}

/-- Two like expressions are both variables or both something else. -/
theorem Expr.Like.var_or_other {value value' : Expr} (alike : value.Like same.likeness value') :
    (∃ name name', value = .var name ∧ value' = .var name' ∧ same.tokens name name') ∨
      ((∀ name, value ≠ .var name) ∧ ∀ name, value' ≠ .var name) := by
  cases alike with
  | var named => exact .inl ⟨_, _, rfl, rfl, named⟩
  | _ => exact .inr ⟨by simp, by simp⟩

theorem assignment_other {left : Expr} (other : ∀ name, left ≠ .var name) (equals : Token)
    (value : Expr) :
    assignment left equals value = (left, [⟨.invalidAssignmentTarget, equals⟩]) := by
  cases left with
  | var name => exact absurd rfl (other name)
  | _ => rfl

theorem incremented_other {target : Expr} (other : ∀ name, target ≠ .var name) (sign : Token) :
    incremented target sign = (target, [⟨.invalidIncrementTarget, sign⟩]) := by
  cases target with
  | var name => exact absurd rfl (other name)
  | _ => rfl

theorem assignment_alike {left left' value value' : Expr} {equals equals' : Token}
    (target : left.Like same.likeness left') (mark : same.tokens equals equals')
    (given : value.Like same.likeness value') :
    (assignment left equals value).1.Like same.likeness (assignment left' equals' value').1 ∧
      List.Forall₂ (SyntaxError.Like same) (assignment left equals value).2
        (assignment left' equals' value').2 := by
  obtain ⟨name, name', rfl, rfl, named⟩ | ⟨other, other'⟩ := target.var_or_other
  · exact ⟨.assign named given, .nil⟩
  · rw [assignment_other other, assignment_other other']
    exact ⟨target, .cons ⟨rfl, mark⟩ .nil⟩

theorem incremented_alike {target target' : Expr} {sign sign' : Token}
    (counted : target.Like same.likeness target') (mark : same.tokens sign sign') :
    (incremented target sign).1.Like same.likeness (incremented target' sign').1 ∧
      List.Forall₂ (SyntaxError.Like same) (incremented target sign).2
        (incremented target' sign').2 := by
  obtain ⟨name, name', rfl, rfl, named⟩ | ⟨other, other'⟩ := counted.var_or_other
  · exact ⟨.increment named mark, .nil⟩
  · rw [incremented_other other, incremented_other other']
    exact ⟨counted, .cons ⟨rfl, mark⟩ .nil⟩

theorem lengthErrors_alike (cause : SyntaxCause) {count count' : Nat} (equal : count = count')
    {next next' : Token} (ahead : same.tokens next next') :
    List.Forall₂ (SyntaxError.Like same) (lengthErrors cause count next)
      (lengthErrors cause count' next') := by
  subst equal
  unfold lengthErrors
  split
  · exact .cons ⟨rfl, ahead⟩ .nil
  · exact .nil

theorem Level.join_alike (level : Level) {left left' right right' : Expr}
    {operator operator' : Token} (first : left.Like same.likeness left')
    (mark : same.tokens operator operator') (second : right.Like same.likeness right') :
    (level.join left operator right).Like same.likeness (level.join left' operator' right') := by
  cases level with
  | disjunction | conjunction => exact .logical first mark second
  | equality | comparison | term | factor => exact .binary first mark second

theorem Expr.ofAtom_alike {token token' : Token} (corresponds : same.tokens token token') :
    (Expr.ofAtom token).Like same.likeness (Expr.ofAtom token') := by
  have literal : Primitive.ofToken token = Primitive.ofToken token' := by
    rw [Primitive.ofToken, Primitive.ofToken, same.literal_eq corresponds]
  unfold Expr.ofAtom
  rw [same.kind_eq corresponds, literal]
  split
  case h_4 => exact .var corresponds
  all_goals exact .literal _

namespace Grammar

variable {final final' : Token}

mutual
theorem expression_alike (ends : same.tokens final final') (tokens : List Token)
    {tokens' : List Token} (alike : List.Forall₂ same.tokens tokens tokens') :
    (expression final tokens).Like same (Expr.Like same.likeness) (expression final' tokens') := by
  unfold expression
  refine (chain_alike ends .disjunction tokens alike).bind ?_
  intro left left' rest rest' shorter shorter' target ahead
  obtain ⟨absent, absent'⟩ | ⟨equals, equals', found, found', mark, behind⟩ :=
    take?_alike ahead (· == .assign)
  · rw [absent, absent']
    exact .ok target .nil ahead
  · rw [found, found']
    have smaller := equals.shorter
    refine ((expression_alike ends equals.rest behind).carry.behind _ _).bind ?_
    intro value value' rest rest' shorter shorter' given ahead
    obtain ⟨node, noted⟩ := assignment_alike target mark given
    exact .ok node noted ahead
termination_by tokens.length * 20 + 16
decreasing_by
  · simp only [Level.rank]; omega
  · omega

theorem chain_alike (ends : same.tokens final final') (level : Level) (tokens : List Token)
    {tokens' : List Token} (alike : List.Forall₂ same.tokens tokens tokens') :
    (chain final level tokens).Like same (Expr.Like same.likeness)
      (chain final' level tokens') := by
  unfold chain
  refine (operand_alike ends level tokens alike).bind ?_
  intro left left' rest rest' shorter shorter' first ahead
  exact (chainRest_alike ends level first rest ahead).lift _ _
termination_by tokens.length * 20 + 5 + 2 * level.rank
decreasing_by all_goals omega

theorem chainRest_alike (ends : same.tokens final final') (level : Level) {left left' : Expr}
    (first : left.Like same.likeness left') (tokens : List Token) {tokens' : List Token}
    (alike : List.Forall₂ same.tokens tokens tokens') :
    (chainRest final level left tokens).Like same (Expr.Like same.likeness)
      (chainRest final' level left' tokens') := by
  unfold chainRest
  obtain ⟨absent, absent'⟩ | ⟨operator, operator', found, found', mark, behind⟩ :=
    take?_alike alike level.joins
  · rw [absent, absent']
    exact .done first alike
  · rw [found, found']
    have smaller := operator.shorter
    refine ((operand_alike ends level operator.rest behind).carry.bind ?_).weaken
    intro right right' rest rest' shorter shorter' second ahead
    exact (chainRest_alike ends level (level.join_alike first mark second) rest ahead).lift _ _
termination_by tokens.length * 20
decreasing_by
  all_goals
    have := level.rank_le
    omega

theorem operand_alike (ends : same.tokens final final') (level : Level) (tokens : List Token)
    {tokens' : List Token} (alike : List.Forall₂ same.tokens tokens tokens') :
    (operand final level tokens).Like same (Expr.Like same.likeness)
      (operand final' level tokens') := by
  unfold operand
  split
  · next next tighter =>
    have := Level.rank_lt_of_tighter? tighter
    exact chain_alike ends next tokens alike
  · exact unary_alike ends tokens alike
termination_by tokens.length * 20 + 4 + 2 * level.rank
decreasing_by all_goals omega

theorem unary_alike (ends : same.tokens final final') (tokens : List Token)
    {tokens' : List Token} (alike : List.Forall₂ same.tokens tokens tokens') :
    (unary final tokens).Like same (Expr.Like same.likeness) (unary final' tokens') := by
  unfold unary
  obtain ⟨absent, absent'⟩ | ⟨operator, operator', found, found', mark, behind⟩ :=
    take?_alike alike isSign
  · rw [absent, absent']
    exact call_alike ends tokens alike
  · rw [found, found']
    have smaller := operator.shorter
    exact ((unary_alike ends operator.rest behind).map fun _ _ right => .unary mark right).carry
termination_by tokens.length * 20 + 3
decreasing_by all_goals omega

theorem call_alike (ends : same.tokens final final') (tokens : List Token)
    {tokens' : List Token} (alike : List.Forall₂ same.tokens tokens tokens') :
    (call final tokens).Like same (Expr.Like same.likeness) (call final' tokens') := by
  unfold call
  refine (increment_alike ends tokens alike).bind ?_
  intro callee callee' rest rest' shorter shorter' called ahead
  exact (callRest_alike ends called rest ahead).lift _ _
termination_by tokens.length * 20 + 2
decreasing_by all_goals omega

theorem callRest_alike (ends : same.tokens final final') {callee callee' : Expr}
    (called : callee.Like same.likeness callee') (tokens : List Token) {tokens' : List Token}
    (alike : List.Forall₂ same.tokens tokens tokens') :
    (callRest final callee tokens).Like same (Expr.Like same.likeness)
      (callRest final' callee' tokens') := by
  unfold callRest
  obtain ⟨absent, absent'⟩ | ⟨opening, opening', found, found', _, behind⟩ :=
    take?_alike alike (· == .leftParen)
  · rw [absent, absent']
    exact .done called alike
  · rw [found, found']
    have smaller := opening.shorter
    refine (((arguments_alike ends opening.rest behind).lift _ _).bind ?_).weaken
    intro values values' rest rest' shorter shorter' given ahead
    refine ((expect_alike ahead ends _ _).behind _ _).bind ?_
    intro closing closing' rest rest' shorter shorter' mark ahead
    exact (callRest_alike ends (.call called mark given) rest ahead).lift _ _
termination_by tokens.length * 20
decreasing_by all_goals omega

theorem arguments_alike (ends : same.tokens final final') (tokens : List Token)
    {tokens' : List Token} (alike : List.Forall₂ same.tokens tokens tokens') :
    (arguments final tokens).Like same (List.Forall₂ (Expr.Like same.likeness))
      (arguments final' tokens') := by
  unfold arguments
  rw [startsWith_eq alike]
  split
  · exact .done .nil alike
  · refine ((argumentList_alike ends tokens alike).bind ?_).weaken
    intro values values' rest rest' shorter shorter' given ahead
    exact .ok given (lengthErrors_alike _ given.length_eq (current_alike ahead ends)) ahead
termination_by tokens.length * 20 + 18
decreasing_by all_goals omega

theorem argumentList_alike (ends : same.tokens final final') (tokens : List Token)
    {tokens' : List Token} (alike : List.Forall₂ same.tokens tokens tokens') :
    (argumentList final tokens).Like same (List.Forall₂ (Expr.Like same.likeness))
      (argumentList final' tokens') := by
  unfold argumentList
  refine (expression_alike ends tokens alike).bind ?_
  intro first first' rest rest' shorter shorter' given ahead
  obtain ⟨absent, absent'⟩ | ⟨comma, comma', found, found', _, behind⟩ :=
    take?_alike ahead (· == .comma)
  · rw [absent, absent']
    exact .ok (.cons given .nil) .nil ahead
  · rw [found, found']
    have smaller := comma.shorter
    exact ((argumentList_alike ends comma.rest behind).map
      fun _ _ others => .cons given others).carry.behind _ _
termination_by tokens.length * 20 + 17
decreasing_by all_goals omega

theorem increment_alike (ends : same.tokens final final') (tokens : List Token)
    {tokens' : List Token} (alike : List.Forall₂ same.tokens tokens tokens') :
    (increment final tokens).Like same (Expr.Like same.likeness) (increment final' tokens') := by
  unfold increment
  refine (primary_alike ends tokens alike).bind ?_
  intro target target' rest rest' shorter shorter' counted ahead
  obtain ⟨absent, absent'⟩ | ⟨sign, sign', found, found', mark, behind⟩ :=
    take?_alike ahead isIncrement
  · rw [absent, absent']
    exact .ok counted .nil ahead
  · rw [found, found']
    obtain ⟨node, noted⟩ := incremented_alike counted mark
    exact .ok node noted behind
termination_by tokens.length * 20 + 1
decreasing_by all_goals omega

theorem primary_alike (ends : same.tokens final final') (tokens : List Token)
    {tokens' : List Token} (alike : List.Forall₂ same.tokens tokens tokens') :
    (primary final tokens).Like same (Expr.Like same.likeness) (primary final' tokens') := by
  match tokens, tokens', alike with
  | [], [], .nil =>
    unfold primary
    exact .fail ⟨rfl, ends⟩ .nil .nil
  | token :: rest, token' :: rest', .cons first others =>
    have kind := same.kind_eq first
    cases atomic : isAtom token.kind with
    | true =>
      rw [primary_atom atomic, primary_atom (kind ▸ atomic)]
      exact .done (Expr.ofAtom_alike first) others
    | false =>
      by_cases grouped : token.kind = .leftParen
      · rw [primary_group grouped, primary_group (kind ▸ grouped)]
        refine ((expression_alike ends rest others).andThen ?_).weaken
        intro inner inner' rest rest' given ahead
        exact (expect_alike ahead ends _ _).map fun _ _ _ => .grouping given
      · rw [primary_other atomic grouped, primary_other (kind ▸ atomic) (kind ▸ grouped)]
        exact .fail ⟨rfl, first⟩ .nil (.cons first others)
termination_by tokens.length * 20
decreasing_by all_goals simp only [List.length_cons]; omega
end

end Grammar

end TinyScript
