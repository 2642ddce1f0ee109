import TinyScript.Proofs.PhraseSound

/-! Every derivation of an expression is read without an error, in front of any token that does
not go on with it. -/
namespace TinyScript

open Phrase

/-- The level whose operands an operator joins. -/
def Level.of? : TokenKind → Option Level
  | .keyword .orWord => some .disjunction
  | .keyword .andWord => some .conjunction
  | .notEqual | .equal => some .equality
  | .greater | .greaterEqual | .less | .lessEqual => some .comparison
  | .minus | .plus => some .term
  | .slash | .star => some .factor
  | _ => none

theorem Level.joins_iff {level : Level} {kind : TokenKind} :
    level.joins kind = true ↔ Level.of? kind = some level := by
  cases kind with
  | keyword word => cases level <;> cases word <;> decide
  | _ => cases level <;> decide

theorem Level.rank_of_tighter {level next : Level} (tighter : level.tighter? = some next) :
    level.rank = next.rank + 1 := by
  cases level <;> simp only [tighter?, Option.some.injEq, reduceCtorEq] at tighter <;>
    subst tighter <;> rfl

namespace Tier

/-- Whether a token of this kind goes on with a phrase that stands at the tier. -/
def extendedBy : Tier → TokenKind → Bool
  | .primary, _ => false
  | .increment, kind => isIncrement kind
  | .call, kind | .unary, kind => isIncrement kind || kind == .leftParen
  | .chain level, kind =>
    isIncrement kind || kind == .leftParen || (Level.of? kind).any (·.rank ≤ level.rank)
  | .assignment, kind =>
    isIncrement kind || kind == .leftParen || (Level.of? kind).isSome || kind == .assign

/-- The tier of the parts that a repetition at this tier is made of. -/
def part : Tier → Tier
  | .call => .increment
  | .chain level => level.operandTier
  | tier => tier

theorem extendedBy_operandTier {level : Level} {kind : TokenKind} :
    level.operandTier.extendedBy kind = true ↔
      isIncrement kind = true ∨ kind = .leftParen ∨ ∃ other, Level.of? kind = some other ∧
        other.rank < level.rank := by
  cases tighter : level.tighter? with
  | some next =>
    rw [Level.operandTier_of_tighter tighter, Level.rank_of_tighter tighter]
    simp only [extendedBy, Bool.or_eq_true, beq_iff_eq, Option.any_eq_true, decide_eq_true_eq,
      or_assoc, Nat.lt_succ_iff]
  | none =>
    obtain rfl := Level.eq_factor_of_tightest tighter
    simp [Level.operandTier, Level.tighter?, extendedBy, Level.rank]

theorem extendedBy_of_part {tier : Tier} {kind : TokenKind}
    (goesOn : tier.part.extendedBy kind = true) : tier.extendedBy kind = true := by
  cases tier with
  | call => simp_all [part, extendedBy]
  | chain level =>
    rw [part, extendedBy_operandTier] at goesOn
    rcases goesOn with counts | opening | ⟨other, found, lower⟩
    · simp [extendedBy, counts]
    · simp [extendedBy, opening]
    · simp [extendedBy, found, Nat.le_of_lt lower]
  | _ => exact goesOn

/-- An operator does not go on with the operands it joins. -/
theorem not_extendedBy_of_joins {level : Level} {kind : TokenKind}
    (joins : level.joins kind = true) : level.operandTier.extendedBy kind = false := by
  rw [Bool.eq_false_iff, ne_eq, extendedBy_operandTier]
  have found := Level.joins_iff.1 joins
  intro found
  rcases found with counts | rfl | ⟨other, same, lower⟩
  · cases kind <;> simp_all [isIncrement, Level.of?]
  · simp [Level.of?] at found
  · obtain rfl : other = level := Option.some.inj (same.symm.trans found)
    exact absurd lower (Nat.lt_irrefl _)

end Tier

namespace Grammar

/-- The rule for the given place. -/
def readAt (final : Token) : Tier → (tokens : List Token) → Step tokens.length Expr
  | .assignment, tokens => expression final tokens
  | .chain level, tokens => chain final level tokens
  | .unary, tokens => unary final tokens
  | .call, tokens => call final tokens
  | .increment, tokens => increment final tokens
  | .primary, tokens => primary final tokens

/-- How the rule for the given place goes on behind a first part. -/
def goOn (final : Token) : Tier → Expr → (tokens : List Token) → Step (tokens.length + 1) Expr
  | .chain level, value, tokens => chainRest final level value tokens
  | .call, value, tokens => callRest final value tokens
  | _, value, tokens => .done value tokens

theorem readAt_operandTier (final : Token) (level : Level) (tokens : List Token) :
    readAt final level.operandTier tokens = operand final level tokens := by
  cases tighter : level.tighter? with
  | some next => rw [Level.operandTier_of_tighter tighter, operand_eq_chain tighter]; rfl
  | none =>
    obtain rfl := Level.eq_factor_of_tightest tighter
    rw [operand_factor]
    rfl

/-- The rule for a place takes the phrase and goes on behind it, unless the next token belongs to
its last part. -/
def Stands (final : Token) (tier : Tier) (phrase : Phrase) : Prop :=
  ∀ rest, starts tier.part.extendedBy rest = false → ∀ value more,
    (goOn final tier phrase.expr rest).Reads value more →
      (readAt final tier (phrase.tokens ++ rest)).Reads value more

variable {final : Token} {phrase : Phrase}

theorem starts_eq_false_of_imp {wanted other : TokenKind → Bool} {tokens : List Token}
    (imp : ∀ kind, other kind = true → wanted kind = true) (stop : starts wanted tokens = false) :
    starts other tokens = false := by
  cases tokens with
  | nil => rfl
  | cons token rest =>
    rw [starts_cons] at stop ⊢
    rw [Bool.eq_false_iff] at stop ⊢
    exact fun found => stop (imp token.kind found)

/-- A phrase that stands at a tier is read there when the next token does not go on with it. -/
theorem Stands.reads {tier : Tier} (stands : Stands final tier phrase) (rest : List Token)
    (stop : starts tier.extendedBy rest = false) :
    (readAt final tier (phrase.tokens ++ rest)).Reads phrase.expr rest := by
  apply stands rest (starts_eq_false_of_imp (fun _ => Tier.extendedBy_of_part) stop)
  cases tier with
  | chain level =>
    refine reads_chainRest.2 (.inl ⟨?_, rfl, rfl⟩)
    refine starts_eq_false_of_imp (fun kind joins => ?_) stop
    simp [Tier.extendedBy, Level.joins_iff.1 joins]
  | call =>
    refine reads_callRest.2 (.inl ⟨?_, rfl, rfl⟩)
    refine starts_eq_false_of_imp (fun kind isOpening => ?_) stop
    simp only [beq_iff_eq] at isOpening
    simp [Tier.extendedBy, isOpening]
  | _ => simp [goOn]

theorem Stands.uncounted (stands : Stands final .primary phrase) :
    Stands final .increment phrase := by
  intro rest stop value more goes
  obtain ⟨rfl, rfl⟩ := Step.reads_done.1 goes
  exact reads_increment.2 ⟨_, _, stands.reads rest (by cases rest <;> rfl), .inl ⟨stop, rfl, rfl⟩⟩

theorem Stands.uncalled (stands : Stands final .increment phrase) : Stands final .call phrase := by
  intro rest stop value more goes
  exact reads_call.2 ⟨_, _, stands.reads rest stop, goes⟩

theorem Stands.unsigned (stands : Stands final .call phrase)
    (unsigned : ∀ rest, starts isSign (phrase.tokens ++ rest) = false) :
    Stands final .unary phrase := by
  intro rest stop value more goes
  obtain ⟨rfl, rfl⟩ := Step.reads_done.1 goes
  exact reads_unary.2 (.inl ⟨unsigned rest, stands.reads rest stop⟩)

theorem Stands.operand {level : Level} (stands : Stands final level.operandTier phrase) :
    Stands final (.chain level) phrase := by
  intro rest stop value more goes
  have front := stands.reads rest stop
  rw [readAt_operandTier] at front
  exact reads_chain.2 ⟨_, _, front, goes⟩

theorem Stands.chained (stands : Stands final (.chain .disjunction) phrase) :
    Stands final .assignment phrase := by
  intro rest stop value more goes
  obtain ⟨rfl, rfl⟩ := Step.reads_done.1 goes
  refine reads_expression.2 ⟨_, _, stands.reads rest ?_, .inl ⟨?_, rfl, rfl⟩⟩
  · refine starts_eq_false_of_imp (fun kind goesOn => ?_) stop
    simp only [Tier.extendedBy, Bool.or_eq_true, Option.any_eq_true, beq_iff_eq] at goesOn
    rcases goesOn with (counts | opening) | ⟨level, found, _⟩
    · simp [Tier.part, Tier.extendedBy, counts]
    · simp [Tier.part, Tier.extendedBy, opening]
    · simp [Tier.part, Tier.extendedBy, found]
  · refine starts_eq_false_of_imp (fun kind isAssign => ?_) stop
    simp only [beq_iff_eq] at isAssign
    simp [Tier.part, Tier.extendedBy, isAssign]

/-- A token that is an expression on its own stands wherever an operand does. -/
theorem stands_atom (final token : Token) (atomic : isAtom token.kind = true) :
    Stands final (.chain .disjunction) (.atom token) := by
  have primary : Stands final .primary (.atom token) := by
    intro rest _ value more goes
    obtain ⟨rfl, rfl⟩ := Step.reads_done.1 goes
    exact reads_primary.2 (.inl ⟨token, rfl, atomic, rfl⟩)
  have unsigned : ∀ rest, starts isSign ((Phrase.atom token).tokens ++ rest) = false := by
    intro rest
    cases kind : token.kind <;> simp_all [Phrase.tokens, isSign, isAtom]
  have factor : Stands final (.chain .factor) (.atom token) :=
    (primary.uncounted.uncalled.unsigned unsigned).operand
  have term : Stands final (.chain .term) (.atom token) := factor.operand
  have comparison : Stands final (.chain .comparison) (.atom token) := term.operand
  have equality : Stands final (.chain .equality) (.atom token) := comparison.operand
  have conjunction : Stands final (.chain .conjunction) (.atom token) := equality.operand
  exact conjunction.operand

theorem argumentList_reads (arguments : List Phrase) (commas : List Token) (closing : Token)
    (rest : List Token) (isClosing : closing.kind = .rightParen)
    (stands : ∀ argument ∈ arguments, Stands final .assignment argument)
    (between : commas.length = arguments.length - 1) (isComma : ∀ comma ∈ commas, comma.kind = .comma)
    (nonempty : arguments ≠ []) :
    (argumentList final (separated (tokenLists arguments) commas ++ closing :: rest)).Reads
      (exprs arguments) (closing :: rest) := by
  induction arguments generalizing commas with
  | nil => exact absurd rfl nonempty
  | cons first others ih =>
    have front := stands first (by simp)
    cases others with
    | nil =>
      exact reads_argumentList.2 ⟨_, _, front.reads _ (by simp [isClosing]; decide),
        .inl ⟨by simp [isClosing], rfl, rfl⟩⟩
    | cons second others =>
      obtain ⟨comma, commas, rfl⟩ : ∃ comma others, commas = comma :: others := by
        cases commas with
        | nil => simp at between
        | cons comma others => exact ⟨comma, others, rfl⟩
      have commaKind : comma.kind = .comma := isComma comma (by simp)
      have behind := ih commas (fun argument member => stands argument (by simp [member]))
        (by simpa using between) (fun other member => isComma other (by simp [member])) (by simp)
      have shape : separated (tokenLists (first :: second :: others)) (comma :: commas) ++
          closing :: rest = first.tokens ++ comma ::
            (separated (tokenLists (second :: others)) commas ++ closing :: rest) := by
        simp [tokenLists, separated]
      rw [shape]
      exact reads_argumentList.2 ⟨_, _, front.reads _ (by simp [commaKind]; decide),
        .inr ⟨comma, _, exprs (second :: others), rfl, commaKind, behind, rfl⟩⟩

theorem arguments_reads (arguments : List Phrase) (commas : List Token) (closing : Token)
    (rest : List Token) (isClosing : closing.kind = .rightParen)
    (derives : ∀ argument ∈ arguments, Derives IsName .assignment argument)
    (stands : ∀ argument ∈ arguments, Stands final .assignment argument)
    (between : commas.length = arguments.length - 1) (isComma : ∀ comma ∈ commas, comma.kind = .comma)
    (short : arguments.length < listLimit) :
    (Grammar.arguments final (separated (tokenLists arguments) commas ++ closing :: rest)).Reads
      (exprs arguments) (closing :: rest) := by
  cases arguments with
  | nil => exact reads_arguments.2 (.inl ⟨by simp [tokenLists, separated, isClosing], rfl, rfl⟩)
  | cons first others =>
    refine reads_arguments.2 (.inr ⟨?_, by simpa [exprs_eq_map] using short,
      argumentList_reads _ _ _ _ isClosing stands between isComma (by simp)⟩)
    obtain ⟨token, more, shape, opens⟩ := (derives first (by simp)).opens
    obtain ⟨tail, same⟩ := separated_cons first.tokens (tokenLists others) commas
    rw [tokenLists, same, shape]
    cases kind : token.kind <;> simp_all [Tier.opensWith, isAtom, isSign]

/-- Every derivation stands at its place. -/
theorem stands_of_derives {tier : Tier} (derives : Derives IsName tier phrase) :
    Stands final tier phrase := by
  induction derives with
  | chained _ ih => exact ih.chained
  | operand _ ih => exact ih.operand
  | unsigned inner ih =>
    obtain ⟨first, others, shape, opens⟩ := inner.opens
    refine ih.unsigned fun rest => ?_
    rw [shape]
    cases kind : first.kind <;> simp_all [Tier.opensWith, isAtom, isSign]
  | uncalled _ ih => exact ih.uncalled
  | uncounted _ ih => exact ih.uncounted
  | @assigned name equals value isName isAssign assigned ih =>
    intro rest stop result more goes
    obtain ⟨rfl, rfl⟩ := Step.reads_done.1 goes
    have target : (chain final .disjunction (name :: equals :: (value.tokens ++ rest))).Reads
        (.var name) (equals :: (value.tokens ++ rest)) := by
      have reads := (stands_atom final name (by simp [isName, isAtom])).reads
        (equals :: (value.tokens ++ rest)) (by simp [isAssign]; decide)
      simpa [Phrase.tokens, readAt, expr, Expr.ofAtom, isName] using reads
    exact reads_expression.2 ⟨_, _, target, .inr ⟨equals, value.tokens ++ rest, name, value.expr,
      rfl, isAssign, rfl, rfl, ih.reads rest stop⟩⟩
  | @joined level left right operator joins leftward rightward ihLeft ihRight =>
    intro rest stop result more goes
    have after := ihRight.reads rest stop
    rw [readAt_operandTier] at after
    have goesOn : (chainRest final level (level.join left.expr operator right.expr) rest).Reads
        result more := by
      rw [Level.join_eq_joined joins]
      exact goes
    have shape : (Phrase.joined left operator right).tokens ++ rest =
        left.tokens ++ operator :: (right.tokens ++ rest) := by simp [Phrase.tokens]
    rw [shape]
    exact ihLeft (operator :: (right.tokens ++ rest)) (Tier.not_extendedBy_of_joins joins) result more
      (reads_chainRest.2 (.inr ⟨operator, _, right.expr, rest, rfl, joins, after, goesOn⟩))
  | @signed operator right sign inner ih =>
    intro rest stop result more goes
    obtain ⟨rfl, rfl⟩ := Step.reads_done.1 goes
    exact reads_unary.2 (.inr ⟨operator, _, right.expr, rfl, sign, ih.reads rest stop, rfl⟩)
  | @call callee opening closing arguments commas called isOpening values between isComma short
      isClosing ihCallee ihArguments =>
    intro rest stop result more goes
    have inside := arguments_reads arguments commas closing rest isClosing values ihArguments between
      isComma short
    have shape : (Phrase.call callee opening arguments commas closing).tokens ++ rest =
        callee.tokens ++ opening :: (separated (tokenLists arguments) commas ++ closing :: rest) := by
      simp [Phrase.tokens]
    rw [shape]
    exact ihCallee (opening :: _) (by simp [isOpening]; decide) result more
      (reads_callRest.2 (.inr ⟨opening, _, exprs arguments, closing, rest, rfl, isOpening, inside,
        isClosing, goes⟩))
  | @counted target sign inner counts isCount ih =>
    intro rest stop result more goes
    obtain ⟨rfl, rfl⟩ := Step.reads_done.1 goes
    obtain ⟨name, rfl, isName, same⟩ := expr_counted sign counts
    rw [same]
    refine reads_increment.2 ⟨_, _, ih.reads (sign :: rest) rfl,
      .inr ⟨sign, name, rfl, isCount, ?_, rfl⟩⟩
    simp [expr, Expr.ofAtom, isName]
  | @atom token atomic =>
    intro rest _ result more goes
    obtain ⟨rfl, rfl⟩ := Step.reads_done.1 goes
    exact reads_primary.2 (.inl ⟨token, rfl, atomic, rfl⟩)
  | @group opening closing inner isOpening grouped isClosing ih =>
    intro rest _ result more goes
    obtain ⟨rfl, rfl⟩ := Step.reads_done.1 goes
    have reads := ih.reads (closing :: rest) (by simp [isClosing]; decide)
    refine reads_primary.2 (.inr ⟨opening, inner.tokens ++ closing :: rest, inner.expr, closing, ?_,
      isOpening, reads, isClosing, rfl⟩)
    simp [Phrase.tokens]

end Grammar

end TinyScript
