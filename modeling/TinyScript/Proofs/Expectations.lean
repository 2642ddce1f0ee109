import TinyScript.Proofs.ExpressionRules
import TinyScript.Syntax.Program

/-! What syntax errors say. Whatever the tokens, a rule of the grammar that fails names one of
finitely many things it expected, and all messages are written on one line. -/
namespace TinyScript

namespace SyntaxCause

/-- All that rules ask for, as their errors name it. -/
def expectations : List String :=
  ["variable name", "';' after variable declaration", "';' after expression", "';' after value",
   "';' after return value", "'(' after 'if'", "')' after if condition", "'(' after 'while'",
   "')' after condition", "'(' after 'for'", "';' after loop condition", "')' after for clauses",
   "function name", "'(' after function name", "parameter name", "')' after parameters",
   "'\x7b' before function body", "'\x7d' after block", "')' after arguments",
   "')' after expression"]

/-- A cause that some rule of the grammar can have for an error. -/
def Listed : SyntaxCause → Prop
  | .expected what => what ∈ expectations
  | _ => True

theorem Listed.newline_not_mem {cause : SyntaxCause} (listed : cause.Listed) :
    '\n' ∉ cause.message.toList := by
  cases cause with
  | expected what =>
    have each : ∀ what ∈ expectations, '\n' ∉ what.toList := by decide +kernel
    simp [message, each what listed]
  | expectedExpression | invalidAssignmentTarget | invalidIncrementTarget | tooManyParameters
  | tooManyArguments => decide

end SyntaxCause

/-- The causes of the errors are listed. -/
def SyntaxError.Explained (errors : List SyntaxError) : Prop :=
  ∀ error ∈ errors, error.cause.Listed

/-- Whichever way the step ends, the causes of its errors are listed. -/
inductive Step.Explained {limit : Nat} {α : Type} : Step limit α → Prop where
  | ok {value : α} {noted : List SyntaxError} {rest : List Token} {shorter : rest.length < limit}
      (errors : SyntaxError.Explained noted) : Explained (.ok value noted rest shorter)
  | fail {error : SyntaxError} {noted : List SyntaxError} {rest : List Token}
      {within : rest.length ≤ limit} (stopped : error.cause.Listed)
      (errors : SyntaxError.Explained noted) : Explained (.fail error noted rest within)

namespace SyntaxError.Explained

theorem nil : Explained [] := by
  intro error member
  cases member

theorem append {first second : List SyntaxError} (explained : Explained first)
    (more : Explained second) : Explained (first ++ second) :=
  List.forall_mem_append.2 ⟨explained, more⟩

theorem assignment (left : Expr) (equals : Token) (value : Expr) :
    Explained (assignment left equals value).2 := by
  cases left <;> simp [Explained, TinyScript.assignment, SyntaxCause.Listed]

theorem incremented (target : Expr) (sign : Token) : Explained (incremented target sign).2 := by
  cases target <;> simp [Explained, TinyScript.incremented, SyntaxCause.Listed]

theorem lengthErrors (cause : SyntaxCause) (listed : cause.Listed) (count : Nat) (next : Token) :
    Explained (lengthErrors cause count next) := by
  unfold TinyScript.lengthErrors
  split
  · simpa [Explained] using listed
  · exact .nil

end SyntaxError.Explained

namespace Step.Explained

variable {limit larger : Nat} {α β : Type} {step : Step limit α}

theorem lift (explained : step.Explained) (le : limit ≤ larger) : (step.lift le).Explained := by
  cases explained with
  | ok errors => exact .ok errors
  | fail stopped errors => exact .fail stopped errors

theorem carry {tokens : List Token} {taken : Taken tokens} {step : Step taken.rest.length α}
    (explained : step.Explained) : (taken.carry step).Explained :=
  explained.lift (Nat.le_of_lt taken.shorter)

theorem done (value : α) (rest : List Token) : (Step.done value rest).Explained := .ok .nil

theorem bind {next : α → (rest : List Token) → rest.length < limit → Step limit β}
    (first : step.Explained)
    (goesOn : ∀ value rest shorter, (next value rest shorter).Explained) :
    (step.bind next).Explained := by
  cases first with
  | fail stopped errors => exact .fail stopped errors
  | @ok value noted rest shorter errors =>
    have later := goesOn value rest shorter
    unfold Step.bind
    dsimp only
    revert later
    generalize next value rest shorter = outcome
    intro later
    cases later with
    | ok more => exact .ok (errors.append more)
    | fail stopped more => exact .fail stopped (errors.append more)

theorem map {change : α → β} (first : step.Explained) : (step.map change).Explained :=
  first.bind fun _ _ _ => .ok .nil

theorem andThen {next : α → (rest : List Token) → Step rest.length β} (first : step.Explained)
    (goesOn : ∀ value rest, (next value rest).Explained) : (step.andThen next).Explained :=
  first.bind fun value rest _ => (goesOn value rest).lift _

theorem andOptional {next : α → (rest : List Token) → Step (rest.length + 1) β}
    (first : step.Explained) (goesOn : ∀ value rest, (next value rest).Explained) :
    (step.andOptional next).Explained :=
  first.bind fun value rest _ => (goesOn value rest).lift _

end Step.Explained

namespace Grammar

variable (final : Token)

theorem expect_explained {kind : TokenKind} {what : String} (tokens : List Token)
    (listed : what ∈ SyntaxCause.expectations := by simp [SyntaxCause.expectations]) :
    (expect final kind what tokens).Explained := by
  unfold expect
  split
  · exact .ok .nil
  · exact .fail listed .nil

mutual
/-- Each rule explains its errors: those of its parts, and what it expects itself. -/
theorem expression_explained (tokens : List Token) : (expression final tokens).Explained := by
  unfold expression
  refine (chain_explained .disjunction tokens).bind fun left rest shorter => ?_
  split
  · exact .ok .nil
  · next equals _ =>
    have := equals.shorter
    refine ((expression_explained equals.rest).carry.lift _).bind fun value rest shorter => ?_
    exact .ok (.assignment left equals.token value)
termination_by tokens.length * 20 + 16
decreasing_by
  · simp only [Level.rank]; omega
  · omega

theorem chain_explained (level : Level) (tokens : List Token) :
    (chain final level tokens).Explained := by
  unfold chain
  exact (operand_explained level tokens).bind fun left rest shorter =>
    (chainRest_explained level left rest).lift _
termination_by tokens.length * 20 + 5 + 2 * level.rank
decreasing_by all_goals omega

theorem chainRest_explained (level : Level) (left : Expr) (tokens : List Token) :
    (chainRest final level left tokens).Explained := by
  unfold chainRest
  split
  · exact .done left tokens
  · next operator _ =>
    have := operator.shorter
    refine ((operand_explained level operator.rest).carry.bind fun right rest shorter => ?_).lift _
    exact (chainRest_explained level _ rest).lift _
termination_by tokens.length * 20
decreasing_by
  all_goals
    have := level.rank_le
    omega

theorem operand_explained (level : Level) (tokens : List Token) :
    (operand final level tokens).Explained := by
  unfold operand
  split
  · next next tighter =>
    have := Level.rank_lt_of_tighter? tighter
    exact chain_explained next tokens
  · exact unary_explained tokens
termination_by tokens.length * 20 + 4 + 2 * level.rank
decreasing_by all_goals omega

theorem unary_explained (tokens : List Token) : (unary final tokens).Explained := by
  unfold unary
  split
  · exact call_explained tokens
  · next operator _ =>
    have := operator.shorter
    exact (unary_explained operator.rest).map.carry
termination_by tokens.length * 20 + 3
decreasing_by all_goals omega

theorem call_explained (tokens : List Token) : (call final tokens).Explained := by
  unfold call
  exact (increment_explained tokens).bind fun callee rest shorter =>
    (callRest_explained callee rest).lift _
termination_by tokens.length * 20 + 2
decreasing_by all_goals omega

theorem callRest_explained (callee : Expr) (tokens : List Token) :
    (callRest final callee tokens).Explained := by
  unfold callRest
  split
  · exact .done callee tokens
  · next opening _ =>
    have := opening.shorter
    refine (((arguments_explained opening.rest).lift _).bind fun values rest shorter => ?_).lift _
    refine ((expect_explained final rest).lift _).bind fun closing rest shorter => ?_
    exact (callRest_explained _ rest).lift _
termination_by tokens.length * 20
decreasing_by all_goals omega

theorem arguments_explained (tokens : List Token) : (arguments final tokens).Explained := by
  unfold arguments
  split
  · exact .done [] tokens
  · refine ((argumentList_explained tokens).bind fun values rest shorter => ?_).lift _
    exact .ok (.lengthErrors .tooManyArguments trivial _ _)
termination_by tokens.length * 20 + 18
decreasing_by all_goals omega

theorem argumentList_explained (tokens : List Token) : (argumentList final tokens).Explained := by
  unfold argumentList
  refine (expression_explained tokens).bind fun first rest shorter => ?_
  split
  · exact .ok .nil
  · next comma _ =>
    have := comma.shorter
    exact (argumentList_explained comma.rest).map.carry.lift _
termination_by tokens.length * 20 + 17
decreasing_by all_goals omega

theorem increment_explained (tokens : List Token) : (increment final tokens).Explained := by
  unfold increment
  refine (primary_explained tokens).bind fun target rest shorter => ?_
  split
  · exact .ok .nil
  · next sign _ => exact .ok (.incremented target sign.token)
termination_by tokens.length * 20 + 1
decreasing_by all_goals omega

theorem primary_explained (tokens : List Token) : (primary final tokens).Explained := by
  cases tokens with
  | nil =>
    unfold primary
    exact .fail trivial .nil
  | cons token rest =>
    cases atomic : isAtom token.kind with
    | true =>
      rw [primary_atom atomic]
      exact .done _ rest
    | false =>
      by_cases grouped : token.kind = .leftParen
      · rw [primary_group grouped]
        refine ((expression_explained rest).andThen fun inner rest => ?_).lift _
        exact (expect_explained final rest).map
      · rw [primary_other atomic grouped]
        exact .fail trivial .nil
termination_by tokens.length * 20
decreasing_by all_goals simp only [List.length_cons]; omega
end

theorem expressionBefore_explained (absent : TokenKind) (tokens : List Token) :
    (expressionBefore final absent tokens).Explained := by
  unfold expressionBefore
  split
  · exact .done none tokens
  · exact (expression_explained final tokens).map.lift _

theorem initializer_explained (tokens : List Token) : (initializer final tokens).Explained := by
  unfold initializer
  split
  · exact .done none tokens
  · next equals _ => exact (expression_explained final equals.rest).map.carry.lift _

theorem variableRule_explained (tokens : List Token) : (variableRule final tokens).Explained := by
  refine (expect_explained final tokens).andOptional fun name rest => ?_
  refine (initializer_explained final rest).andThen fun value rest => ?_
  exact (expect_explained final rest).map

theorem expressionRule_explained (tokens : List Token) :
    (expressionRule final tokens).Explained := by
  refine (expression_explained final tokens).andThen fun value rest => ?_
  exact (expect_explained final rest).map

theorem printRule_explained (keyword : Token) (tokens : List Token) :
    (printRule final keyword tokens).Explained := by
  refine (expression_explained final tokens).andThen fun value rest => ?_
  exact (expect_explained final rest).map

theorem returnRule_explained (keyword : Token) (tokens : List Token) :
    (returnRule final keyword tokens).Explained := by
  refine (expressionBefore_explained final _ tokens).andThen fun value rest => ?_
  exact (expect_explained final rest).map

theorem condition_explained {keyword closing : String} (tokens : List Token)
    (opens : "'(' after '" ++ keyword ++ "'" ∈ SyntaxCause.expectations := by
      simp [SyntaxCause.expectations])
    (closes : closing ∈ SyntaxCause.expectations := by simp [SyntaxCause.expectations]) :
    (condition final keyword closing tokens).Explained := by
  refine (expect_explained final tokens opens).andThen fun _ rest => ?_
  refine (expression_explained final rest).andThen fun value rest => ?_
  exact (expect_explained final rest closes).map

theorem forInitializer_explained (tokens : List Token) :
    (forInitializer final tokens).Explained := by
  unfold forInitializer
  split
  · exact .ok .nil
  · split
    · next opening _ => exact (variableRule_explained final opening.rest).map.carry
    · exact (expressionRule_explained final tokens).map

theorem forHeader_explained (tokens : List Token) : (forHeader final tokens).Explained := by
  refine (expect_explained final tokens).andThen fun _ rest => ?_
  refine (forInitializer_explained final rest).andOptional fun initializer rest => ?_
  refine (expressionBefore_explained final _ rest).andThen fun condition rest => ?_
  refine (expect_explained final rest).andOptional fun _ rest => ?_
  refine (expressionBefore_explained final _ rest).andThen fun increment rest => ?_
  exact (expect_explained final rest).map

theorem parameterList_explained (tokens : List Token) :
    (parameterList final tokens).Explained := by
  unfold parameterList
  refine (expect_explained final tokens).bind fun first rest shorter => ?_
  split
  · exact .ok .nil
  · next comma _ =>
    have := comma.shorter
    exact (parameterList_explained comma.rest).map.carry.lift _
termination_by tokens.length
decreasing_by omega

theorem parameters_explained (tokens : List Token) : (parameters final tokens).Explained := by
  unfold parameters
  split
  · exact .done [] tokens
  · refine ((parameterList_explained final tokens).bind fun names rest shorter => ?_).lift _
    exact .ok (.lengthErrors .tooManyParameters trivial _ _)

theorem functionHeader_explained (tokens : List Token) :
    (functionHeader final tokens).Explained := by
  refine (expect_explained final tokens).andThen fun name rest => ?_
  refine (expect_explained final rest).andOptional fun _ rest => ?_
  refine (parameters_explained final rest).andThen fun names rest => ?_
  refine (expect_explained final rest).andThen fun _ rest => ?_
  exact (expect_explained final rest).map

mutual
theorem declaration_explained (tokens : List Token) : (declaration final tokens).Explained := by
  unfold declaration
  split
  · next opening _ =>
    have := opening.shorter
    refine (functionHeader_explained final opening.rest).carry.bind fun header rest shorter => ?_
    exact (block_explained rest).map.lift _
  · split
    · next opening _ => exact (variableRule_explained final opening.rest).carry
    · exact statement_explained tokens
termination_by tokens.length * 4 + 1
decreasing_by all_goals omega

theorem statement_explained (tokens : List Token) : (statement final tokens).Explained := by
  cases tokens with
  | nil =>
    unfold statement
    exact expressionRule_explained final []
  | cons first rest =>
    unfold statement
    dsimp only
    split
    · refine ((forHeader_explained final rest).bind fun header rest shorter => ?_).lift _
      exact (statement_explained rest).map.lift _
    · refine ((condition_explained final rest).bind fun condition rest shorter => ?_).lift _
      refine ((statement_explained rest).lift _).bind fun consequent rest shorter => ?_
      split
      · exact .ok .nil
      · next opening _ =>
        have := opening.shorter
        exact (statement_explained opening.rest).map.carry.lift _
    · exact returnRule_explained final first rest
    · refine ((condition_explained final rest).bind fun condition rest shorter => ?_).lift _
      exact (statement_explained rest).map.lift _
    · exact (block_explained rest).map
    · split
      · exact (printRule_explained final first rest).lift _
      · exact expressionRule_explained final (first :: rest)
termination_by tokens.length * 4
decreasing_by all_goals simp only [List.length_cons]; omega

theorem block_explained (tokens : List Token) : (block final tokens).Explained := by
  -- Errors noted inside the block are kept whether or not it is closed.
  have inside := declarations_explained true tokens
  have closed : (expect final .rightBrace "'\x7d' after block"
      (declarations final true tokens).rest).Explained := expect_explained final _
  unfold block
  dsimp only
  revert closed
  generalize expect final .rightBrace "'\x7d' after block" (declarations final true tokens).rest =
    outcome
  intro closed
  cases closed with
  | ok errors => exact .ok (inside.append errors)
  | fail stopped errors => exact .fail stopped (inside.append errors)
termination_by tokens.length * 4 + 3
decreasing_by omega

theorem declarations_explained (inBlock : Bool) (tokens : List Token) :
    SyntaxError.Explained (declarations final inBlock tokens).errors := by
  cases tokens with
  | nil =>
    unfold declarations
    exact .nil
  | cons first rest =>
    have head := declaration_explained (first :: rest)
    unfold declarations
    dsimp only
    split
    · exact .nil
    · revert head
      generalize declaration final (first :: rest) = outcome
      intro head
      cases head with
      | @ok statement noted after shorter errors =>
        have smaller : after.length < rest.length + 1 := shorter
        exact errors.append (declarations_explained inBlock after)
      | @fail error noted after within stopped errors =>
        have smaller : (recover after).length < rest.length + 1 :=
          length_recover_lt within (Nat.succ_pos _)
        have more := declarations_explained inBlock (recover after)
        exact errors.append (List.forall_mem_cons.2 ⟨stopped, more⟩)
termination_by tokens.length * 4 + 2
decreasing_by all_goals simp only [List.length_cons]; omega
end

end Grammar

/-- Every syntax error of a stream of items has a cause that is listed. -/
theorem parseItems_explained (items : List Item) :
    SyntaxError.Explained (parseItems items).errors :=
  Grammar.declarations_explained _ false _

end TinyScript
