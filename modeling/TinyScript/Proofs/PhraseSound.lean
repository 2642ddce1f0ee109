import TinyScript.Proofs.Phrase

/-! Expressions that are read without an error have a derivation, which accounts for every token
that was taken. -/
namespace TinyScript

open Phrase

/-- The tokens of a list are what a phrase at the given place takes, followed by the rest. -/
def Spells (tier : Tier) (tokens : List Token) (value : Expr) (rest : List Token) : Prop :=
  ∃ phrase, Derives IsName tier phrase ∧ tokens = phrase.tokens ++ rest ∧ phrase.expr = value

/-- Arguments with the separators between them, followed by the rest. -/
def SpellsArguments (tokens : List Token) (values : List Expr) (rest : List Token) : Prop :=
  ∃ arguments commas, (∀ argument ∈ arguments, Derives IsName .assignment argument) ∧
    commas.length = arguments.length - 1 ∧ (∀ comma ∈ commas, comma.kind = .comma) ∧
    tokens = separated (tokenLists arguments) commas ++ rest ∧ exprs arguments = values

theorem Expr.joined_ne_var (left right : Expr) (operator name : Token) :
    Expr.joined left operator right ≠ .var name := by
  unfold Expr.joined
  split <;> simp

/-- A name is all that can be counted up or down. -/
theorem Phrase.expr_counted {target : Phrase} (sign : Token) (isName : target.IsName) :
    ∃ name, target = .atom name ∧ name.kind = .identifier ∧
      (Phrase.counted target sign).expr = .increment name sign := by
  cases target with
  | atom token =>
    refine ⟨token, rfl, isName, ?_⟩
    have kind : token.kind = .identifier := isName
    simp [expr, Expr.ofAtom, kind, incremented]
  | _ => exact isName.elim

/-- Only a single name spells a variable. -/
theorem Phrase.eq_atom_of_expr_eq_var {tier : Tier} {phrase : Phrase} {name : Token}
    (derives : Derives IsName tier phrase) (isVar : phrase.expr = .var name) :
    phrase = .atom name ∧ name.kind = .identifier := by
  induction derives with
  | chained _ ih | operand _ ih | unsigned _ ih | uncalled _ ih | uncounted _ ih => exact ih isVar
  | joined => exact absurd isVar (Expr.joined_ne_var _ _ _ _)
  | @counted target sign _ counts =>
    obtain ⟨other, _, _, same⟩ := expr_counted sign counts
    simp [same] at isVar
  | @atom token atomic =>
    simp only [expr, Expr.ofAtom] at isVar
    split at isVar <;> simp_all
  | assigned | signed | call | group => simp [expr] at isVar

theorem Level.operandTier_of_tighter {level next : Level} (tighter : level.tighter? = some next) :
    level.operandTier = .chain next := by
  simp [operandTier, tighter]

theorem Level.eq_factor_of_tightest {level : Level} (tightest : level.tighter? = none) :
    level = .factor := by
  cases level <;> simp_all [tighter?]

namespace Grammar

variable {final : Token}

theorem argumentList_ne_nil {tokens : List Token} {values : List Expr} {rest : List Token}
    (reads : (argumentList final tokens).Reads values rest) : values ≠ [] := by
  obtain ⟨first, middle, _, ⟨_, rfl, _⟩ | ⟨comma, more, others, _, _, _, rfl⟩⟩ :=
    reads_argumentList.1 reads
  · simp
  · simp

mutual
theorem expression_sound (tokens : List Token) {value : Expr} {rest : List Token}
    (reads : (expression final tokens).Reads value rest) :
    Spells .assignment tokens value rest := by
  obtain ⟨left, middle, front, choice⟩ := reads_expression.1 reads
  obtain ⟨phrase, derives, taken, rfl⟩ := chain_sound .disjunction tokens front
  rcases choice with ⟨_, rfl, rfl⟩ | ⟨equals, more, name, assigned, rfl, isAssign, isVar, rfl, behind⟩
  · exact ⟨phrase, .chained derives, taken, rfl⟩
  · have shorter := front.length_lt
    obtain ⟨inner, innerDerives, innerTaken, rfl⟩ := expression_sound more behind
    obtain ⟨rfl, isName⟩ := eq_atom_of_expr_eq_var derives isVar
    refine ⟨.assigned name equals inner, .assigned isName isAssign innerDerives, ?_, rfl⟩
    simp [taken, innerTaken, Phrase.tokens]
termination_by tokens.length * 20 + 16
decreasing_by
  · simp only [Level.rank]; omega
  · simp only [List.length_cons] at shorter; omega

theorem chain_sound (level : Level) (tokens : List Token) {value : Expr} {rest : List Token}
    (reads : (chain final level tokens).Reads value rest) :
    Spells (.chain level) tokens value rest := by
  obtain ⟨left, middle, front, behind⟩ := reads_chain.1 reads
  obtain ⟨phrase, derives, taken, rfl⟩ := operand_sound level tokens front
  have shorter := front.length_lt
  obtain ⟨whole, wholeDerives, wholeTaken, rfl⟩ :=
    chainRest_sound level phrase (.operand derives) middle behind
  exact ⟨whole, wholeDerives, taken.trans wholeTaken, rfl⟩
termination_by tokens.length * 20 + 5 + 2 * level.rank
decreasing_by all_goals omega

/-- What a chain reads goes on from the operands read before. -/
theorem chainRest_sound (level : Level) (left : Phrase)
    (leftDerives : Derives IsName (.chain level) left) (tokens : List Token) {value : Expr}
    {rest : List Token} (reads : (chainRest final level left.expr tokens).Reads value rest) :
    Spells (.chain level) (left.tokens ++ tokens) value rest := by
  rcases reads_chainRest.1 reads with
    ⟨_, rfl, rfl⟩ | ⟨operator, more, right, middle, shape, joins, front, behind⟩
  · exact ⟨left, leftDerives, rfl, rfl⟩
  · have smaller : more.length < tokens.length := by simp [shape]
    have shorter := front.length_lt
    obtain ⟨phrase, derives, taken, rfl⟩ := operand_sound level more front
    have joined : Derives IsName (.chain level) (.joined left operator phrase) :=
      .joined joins leftDerives derives
    rw [Level.join_eq_joined joins] at behind
    obtain ⟨whole, wholeDerives, wholeTaken, rfl⟩ :=
      chainRest_sound level (.joined left operator phrase) joined middle behind
    refine ⟨whole, wholeDerives, ?_, rfl⟩
    rw [← wholeTaken, shape]
    simp [Phrase.tokens, taken]
termination_by tokens.length * 20
decreasing_by
  all_goals
    have := level.rank_le
    omega

theorem operand_sound (level : Level) (tokens : List Token) {value : Expr} {rest : List Token}
    (reads : (operand final level tokens).Reads value rest) :
    Spells level.operandTier tokens value rest := by
  cases tighter : level.tighter? with
  | some next =>
    have := Level.rank_lt_of_tighter? tighter
    rw [operand_eq_chain tighter] at reads
    rw [Level.operandTier_of_tighter tighter]
    exact chain_sound next tokens reads
  | none =>
    obtain rfl := Level.eq_factor_of_tightest tighter
    rw [operand_factor] at reads
    exact unary_sound tokens reads
termination_by tokens.length * 20 + 4 + 2 * level.rank
decreasing_by all_goals omega

theorem unary_sound (tokens : List Token) {value : Expr} {rest : List Token}
    (reads : (unary final tokens).Reads value rest) : Spells .unary tokens value rest := by
  rcases reads_unary.1 reads with ⟨_, front⟩ | ⟨operator, more, right, shape, sign, behind, rfl⟩
  · obtain ⟨phrase, derives, taken, same⟩ := call_sound tokens front
    exact ⟨phrase, .unsigned derives, taken, same⟩
  · have smaller : more.length < tokens.length := by simp [shape]
    obtain ⟨phrase, derives, taken, rfl⟩ := unary_sound more behind
    refine ⟨.signed operator phrase, .signed sign derives, ?_, rfl⟩
    simp [Phrase.tokens, shape, taken]
termination_by tokens.length * 20 + 3
decreasing_by all_goals omega

theorem call_sound (tokens : List Token) {value : Expr} {rest : List Token}
    (reads : (call final tokens).Reads value rest) : Spells .call tokens value rest := by
  obtain ⟨callee, middle, front, behind⟩ := reads_call.1 reads
  obtain ⟨phrase, derives, taken, rfl⟩ := increment_sound tokens front
  have shorter := front.length_lt
  obtain ⟨whole, wholeDerives, wholeTaken, rfl⟩ :=
    callRest_sound phrase (.uncalled derives) middle behind
  exact ⟨whole, wholeDerives, taken.trans wholeTaken, rfl⟩
termination_by tokens.length * 20 + 2
decreasing_by all_goals omega

/-- What a row of calls reads goes on from the callee read before. -/
theorem callRest_sound (callee : Phrase) (calleeDerives : Derives IsName .call callee)
    (tokens : List Token) {value : Expr} {rest : List Token}
    (reads : (callRest final callee.expr tokens).Reads value rest) :
    Spells .call (callee.tokens ++ tokens) value rest := by
  rcases reads_callRest.1 reads with
    ⟨_, rfl, rfl⟩ | ⟨opening, more, values, closing, behind, shape, isOpening, front, isClosing, after⟩
  · exact ⟨callee, calleeDerives, rfl, rfl⟩
  · have smaller : more.length < tokens.length := by simp [shape]
    have shorter : behind.length < more.length := by
      have := front.length_lt
      simp only [List.length_cons] at this
      omega
    obtain ⟨⟨listed, commas, derives, between, isComma, taken, rfl⟩, short⟩ :=
      arguments_sound more front
    have called : Derives IsName .call (.call callee opening listed commas closing) :=
      .call calleeDerives isOpening derives between isComma
        (by simpa [exprs_eq_map] using short) isClosing
    obtain ⟨whole, wholeDerives, wholeTaken, rfl⟩ :=
      callRest_sound (.call callee opening listed commas closing) called behind after
    refine ⟨whole, wholeDerives, ?_, rfl⟩
    rw [← wholeTaken, shape]
    simp [Phrase.tokens, taken]
termination_by tokens.length * 20
decreasing_by all_goals omega

theorem arguments_sound (tokens : List Token) {values : List Expr} {rest : List Token}
    (reads : (arguments final tokens).Reads values rest) :
    SpellsArguments tokens values rest ∧ values.length < listLimit := by
  rcases reads_arguments.1 reads with ⟨_, rfl, rfl⟩ | ⟨_, short, front⟩
  · exact ⟨⟨[], [], by simp [separated, tokenLists, exprs]⟩, by decide⟩
  · exact ⟨argumentList_sound tokens front, short⟩
termination_by tokens.length * 20 + 18
decreasing_by all_goals omega

theorem argumentList_sound (tokens : List Token) {values : List Expr} {rest : List Token}
    (reads : (argumentList final tokens).Reads values rest) :
    SpellsArguments tokens values rest := by
  obtain ⟨first, middle, front, choice⟩ := reads_argumentList.1 reads
  obtain ⟨phrase, derives, taken, rfl⟩ := expression_sound tokens front
  rcases choice with ⟨_, rfl, rfl⟩ | ⟨comma, more, others, rfl, isComma, behind, rfl⟩
  · refine ⟨[phrase], [], ?_⟩
    simpa [separated, tokenLists, exprs, taken] using derives
  · have shorter : more.length < tokens.length := by
      have := front.length_lt
      simp only [List.length_cons] at this
      omega
    obtain ⟨listed, commas, othersDerive, between, areCommas, othersTaken, rfl⟩ :=
      argumentList_sound more behind
    obtain ⟨second, others, rfl⟩ : ∃ second others, listed = second :: others :=
      List.exists_cons_of_ne_nil fun empty => argumentList_ne_nil behind (by simp [empty, exprs])
    refine ⟨phrase :: second :: others, comma :: commas, ?_, ?_, ?_, ?_, rfl⟩
    · simpa using ⟨derives, by simpa using othersDerive⟩
    · simpa using between
    · simpa using ⟨isComma, areCommas⟩
    · simp [taken, othersTaken, tokenLists, separated]
termination_by tokens.length * 20 + 17
decreasing_by all_goals omega

theorem increment_sound (tokens : List Token) {value : Expr} {rest : List Token}
    (reads : (increment final tokens).Reads value rest) : Spells .increment tokens value rest := by
  obtain ⟨target, middle, front, choice⟩ := reads_increment.1 reads
  obtain ⟨phrase, derives, taken, rfl⟩ := primary_sound tokens front
  rcases choice with ⟨_, rfl, rfl⟩ | ⟨sign, name, rfl, isCount, isVar, rfl⟩
  · exact ⟨phrase, .uncounted derives, taken, rfl⟩
  · obtain ⟨rfl, isName⟩ := eq_atom_of_expr_eq_var derives isVar
    refine ⟨.counted (.atom name) sign, .counted derives isName isCount, ?_, ?_⟩
    · simp [Phrase.tokens, taken]
    · rw [expr, isVar, incremented]
termination_by tokens.length * 20 + 1
decreasing_by all_goals omega

theorem primary_sound (tokens : List Token) {value : Expr} {rest : List Token}
    (reads : (primary final tokens).Reads value rest) : Spells .primary tokens value rest := by
  rcases reads_primary.1 reads with
    ⟨token, rfl, atomic, rfl⟩ | ⟨opening, more, inner, closing, shape, isOpening, front, isClosing, rfl⟩
  · exact ⟨.atom token, .atom atomic, rfl, rfl⟩
  · have smaller : more.length < tokens.length := by simp [shape]
    obtain ⟨phrase, derives, taken, rfl⟩ := expression_sound more front
    refine ⟨.group opening phrase closing, .group isOpening derives isClosing, ?_, rfl⟩
    simp [Phrase.tokens, shape, taken]
termination_by tokens.length * 20
decreasing_by all_goals omega
end

end Grammar

end TinyScript
