import TinyScript.Proofs.OnDemand

/-! Every rule on demand does what its rule of the grammar does. How deep the calls of a rule go is
bounded by the tokens in front of it and by its place among the rules that call each other in front of
the same token; in each rule the calls need less than the rule itself. -/
namespace TinyScript

namespace Rule

/-- How deep a rule calls others in front of the same token. -/
def rank {α : Type} : Rule α → Nat
  | .chainRest .. | .callRest .. | .primary | .parameterList | .resume => 0
  | .increment => 1
  | .call => 2
  | .unary => 3
  | .operand level => 4 + 2 * level.rank
  | .chain level => 5 + 2 * level.rank
  | .expression => 16
  | .argumentList => 17
  | .arguments => 18
  | .statement => 20
  | .plainDeclaration => 21
  | .declaration => 22
  | .declarations _ => 23
  | .block => 24

/-- More than enough fuel for a rule in front of the given tokens. -/
def need {α : Type} (rule : Rule α) (tokens : List Token) : Nat := tokens.length * 40 + rule.rank

end Rule

/-- Statements read one after another, seen as one step. -/
def Statements.step {limit : Nat} (read : Statements limit) : Step (limit + 1) (List Stmt) :=
  .ok read.statements read.errors read.rest (Nat.lt_succ_of_le read.within)

/-- A block is the declarations up to its closing brace. -/
theorem Grammar.block_eq (final : Token) (tokens : List Token) :
    block final tokens = (declarations final true tokens).step.andThen fun statements rest =>
      (expect final .rightBrace "'\x7d' after block" rest).map fun _ => statements := by
  unfold block Statements.step Step.andThen Step.bind Step.behind
  dsimp only
  cases expect final .rightBrace "'\x7d' after block" (declarations final true tokens).rest with
  | ok value noted rest shorter => simp [Step.map, Step.bind, Step.lift]
  | fail error noted rest within => simp [Step.map, Step.bind, Step.lift]

/-- One declaration, or none if there was an error, and where parsing goes on behind it. -/
def Grammar.recovered (final : Token) (tokens : List Token) :
    Step (tokens.length + 1) (Option Stmt) :=
  match Grammar.declaration final tokens with
  | .ok statement noted rest shorter => .ok (some statement) noted rest (Nat.lt_succ_of_lt shorter)
  | .fail error noted rest within =>
    .ok none (noted ++ [error]) (recover rest)
      (length_recover_lt (Nat.le_succ_of_le within) (Nat.succ_pos _))

namespace Rule

open Parsing

/-- A run of the rule does on a window what the rule of the grammar does on the tokens in front. -/
def Follows (items : List Item) {α : Type} (rule : Rule α) (tokens : List Token) (run : Parsing α)
    (window : Window) : Prop :=
  let final := (Feed.ofItems items).final
  match rule with
  | .expression => run.Agrees items window (Grammar.expression final tokens)
  | .chain level => run.Agrees items window (Grammar.chain final level tokens)
  | .chainRest level left => run.Agrees items window (Grammar.chainRest final level left tokens)
  | .operand level => run.Agrees items window (Grammar.operand final level tokens)
  | .unary => run.Agrees items window (Grammar.unary final tokens)
  | .call => run.Agrees items window (Grammar.call final tokens)
  | .callRest callee => run.Agrees items window (Grammar.callRest final callee tokens)
  | .arguments => run.Agrees items window (Grammar.arguments final tokens)
  | .argumentList => run.Agrees items window (Grammar.argumentList final tokens)
  | .increment => run.Agrees items window (Grammar.increment final tokens)
  | .primary => run.Agrees items window (Grammar.primary final tokens)
  | .parameterList => run.Agrees items window (Grammar.parameterList final tokens)
  | .statement => run.Agrees items window (Grammar.statement final tokens)
  | .plainDeclaration => run.Agrees items window (Grammar.declaration final tokens)
  | .resume =>
    let rest := Grammar.resume (window.previous.getD final) tokens
    run.Agrees items window (.ok () [] rest (Nat.lt_succ_of_le (Grammar.length_resume_le _ _)))
  | .declaration => run.Agrees items window (Grammar.recovered final tokens)
  | .declarations inBlock =>
    run.Agrees items window (Grammar.declarations final inBlock tokens).step
  | .block => run.Agrees items window (Grammar.block final tokens)

/-- All rules do what the grammar does, as far as the limit on their need goes. -/
def Known (items : List Item) (limit : Nat) (again : {α : Type} → Rule α → Parsing α) : Prop :=
  ∀ {α : Type} (rule : Rule α) (tokens : List Token) (window : Window),
    Window.Faces items tokens window → rule.need tokens < limit →
    rule.Follows items tokens (again rule) window

section Bodies

variable {items : List Item} {limit : Nat} {again : {α : Type} → Rule α → Parsing α}
variable {tokens : List Token} {window : Window}

theorem Known.expression (known : Known items limit again) (faces : Window.Faces items tokens window)
    (enough : tokens.length * 40 + 16 < limit) :
    (again .expression).Agrees items window
      (Grammar.expression (Feed.ofItems items).final tokens) :=
  known .expression tokens window faces enough

theorem expression_follows (known : Known items (expression.need tokens) again)
    (faces : Window.Faces items tokens window) :
    expression.Follows items tokens (body again .expression) window := by
  have left := known (.chain .disjunction) tokens window faces (by simp [need, rank, Level.rank])
  simp only [Follows] at left ⊢
  unfold Grammar.expression
  refine left.bind ?_
  intro left rest shorter behind ahead
  obtain ⟨absent, stays⟩ | ⟨equals, found, passes, further⟩ := accept_cases ahead (· == .assign)
  · rw [absent]
    exact .after stays (.give ahead shorter)
  · rw [found]
    have smaller := equals.shorter
    have value := known.expression further (by simp only [need, rank]; omega)
    refine .after passes ((value.carry.behind shorter).bind ?_)
    intro value rest shorter behind ahead
    exact .note ahead shorter _

theorem chain_follows {level : Level} (known : Known items ((chain level).need tokens) again)
    (faces : Window.Faces items tokens window) :
    (chain level).Follows items tokens (body again (.chain level)) window := by
  have first := known (.operand level) tokens window faces (by simp only [need, rank]; omega)
  simp only [Follows] at first ⊢
  unfold Grammar.chain
  refine first.bind ?_
  intro left rest shorter behind ahead
  have others := known (.chainRest level left) rest behind ahead (by simp only [need, rank]; omega)
  exact Agrees.lift others shorter

theorem chainRest_follows {level : Level} {left : Expr}
    (known : Known items ((chainRest level left).need tokens) again)
    (faces : Window.Faces items tokens window) :
    (chainRest level left).Follows items tokens (body again (.chainRest level left)) window := by
  simp only [Follows]
  unfold Grammar.chainRest
  obtain ⟨absent, stays⟩ | ⟨operator, found, passes, further⟩ := accept_cases faces level.joins
  · rw [absent]
    exact .after stays (.done faces)
  · rw [found]
    have smaller := operator.shorter
    have bounded := level.rank_le
    have right := known (.operand level) operator.rest window.advance further
      (by simp only [need, rank]; omega)
    simp only [Follows] at right
    refine .after passes (right.carry.bind ?_).weaken
    intro right rest shorter behind ahead
    have others := known (.chainRest level (level.join left operator.token right)) rest behind ahead
      (by simp only [need, rank]; omega)
    exact Agrees.lift others shorter

theorem operand_follows {level : Level} (known : Known items ((operand level).need tokens) again)
    (faces : Window.Faces items tokens window) :
    (operand level).Follows items tokens (body again (.operand level)) window := by
  simp only [Follows, body]
  cases tighter : level.tighter? with
  | some next =>
    have smaller := Level.rank_lt_of_tighter? tighter
    rw [Grammar.operand_eq_chain tighter]
    exact known (.chain next) tokens window faces (by simp only [need, rank]; omega)
  | none =>
    obtain rfl := Level.eq_factor_of_tightest tighter
    rw [Grammar.operand_factor]
    exact known .unary tokens window faces (by simp only [need, rank]; omega)

theorem unary_follows (known : Known items (unary.need tokens) again)
    (faces : Window.Faces items tokens window) :
    unary.Follows items tokens (body again .unary) window := by
  simp only [Follows]
  unfold Grammar.unary
  obtain ⟨absent, stays⟩ | ⟨operator, found, passes, further⟩ := accept_cases faces isSign
  · rw [absent]
    exact .after stays (known .call tokens window faces (by simp only [need, rank]; omega))
  · rw [found]
    have smaller := operator.shorter
    have right := known .unary operator.rest window.advance further
      (by simp only [need, rank]; omega)
    exact .after passes (Agrees.map right).carry

theorem call_follows (known : Known items (call.need tokens) again)
    (faces : Window.Faces items tokens window) :
    call.Follows items tokens (body again .call) window := by
  have callee := known .increment tokens window faces (by simp only [need, rank]; omega)
  simp only [Follows] at callee ⊢
  unfold Grammar.call
  refine callee.bind ?_
  intro callee rest shorter behind ahead
  have others := known (.callRest callee) rest behind ahead (by simp only [need, rank]; omega)
  exact Agrees.lift others shorter

theorem callRest_follows {callee : Expr} (known : Known items ((callRest callee).need tokens) again)
    (faces : Window.Faces items tokens window) :
    (callRest callee).Follows items tokens (body again (.callRest callee)) window := by
  simp only [Follows]
  unfold Grammar.callRest
  obtain ⟨absent, stays⟩ | ⟨opening, found, passes, further⟩ := accept_cases faces (· == .leftParen)
  · rw [absent]
    exact .after stays (.done faces)
  · rw [found]
    have smaller := opening.shorter
    have values := known .arguments opening.rest window.advance further
      (by simp only [need, rank]; omega)
    refine .after passes ((Agrees.lift values opening.shorter).bind ?_).weaken
    intro values rest shorter behind ahead
    refine ((consume_agrees ahead _ _).behind shorter).bind ?_
    intro closing rest shorter behind ahead
    have others := known (.callRest (.call callee closing values)) rest behind ahead
      (by simp only [need, rank]; omega)
    exact Agrees.lift others shorter

theorem arguments_follows (known : Known items (arguments.need tokens) again)
    (faces : Window.Faces items tokens window) :
    arguments.Follows items tokens (body again .arguments) window := by
  simp only [Follows]
  unfold Grammar.arguments
  refine .after (check_eq faces .rightParen) ?_
  cases startsWith .rightParen tokens with
  | true => exact .done faces
  | false =>
    have values := known .argumentList tokens window faces (by simp only [need, rank]; omega)
    refine (Agrees.bind values ?_).weaken
    intro values rest shorter behind ahead
    refine .after rfl ?_
    rw [ahead.current_eq]
    exact .note ahead shorter _

theorem argumentList_follows (known : Known items (argumentList.need tokens) again)
    (faces : Window.Faces items tokens window) :
    argumentList.Follows items tokens (body again .argumentList) window := by
  have first := known.expression faces (by simp only [need, rank]; omega)
  simp only [Follows]
  unfold Grammar.argumentList
  refine first.bind ?_
  intro first rest shorter behind ahead
  obtain ⟨absent, stays⟩ | ⟨comma, found, passes, further⟩ := accept_cases ahead (· == .comma)
  · rw [absent]
    exact .after stays (.give ahead shorter)
  · rw [found]
    have smaller := comma.shorter
    have others := known .argumentList comma.rest behind.advance further
      (by simp only [need, rank]; omega)
    exact .after passes ((Agrees.map others).carry.behind shorter)

theorem increment_follows (known : Known items (increment.need tokens) again)
    (faces : Window.Faces items tokens window) :
    increment.Follows items tokens (body again .increment) window := by
  have target := known .primary tokens window faces (by simp only [need, rank]; omega)
  simp only [Follows] at target ⊢
  unfold Grammar.increment
  refine target.bind ?_
  intro target rest shorter behind ahead
  obtain ⟨absent, stays⟩ | ⟨sign, found, passes, further⟩ := accept_cases ahead isIncrement
  · rw [absent]
    exact .after stays (.give ahead shorter)
  · rw [found]
    exact .after passes (.note further _ _)

theorem primary_follows (known : Known items (primary.need tokens) again)
    (faces : Window.Faces items tokens window) :
    primary.Follows items tokens (body again .primary) window := by
  simp only [Follows]
  refine .after rfl ?_
  cases tokens with
  | nil =>
    rw [faces.kind_nil, Grammar.primary]
    exact fail_agrees faces _ _
  | cons token rest =>
    have passes := advance_cons faces
    have ahead := faces.advance.1
    rw [faces.current_cons, Grammar.primary]
    dsimp only
    generalize token.kind = kind
    cases kind with
    | leftParen =>
      have inner := known.expression ahead (by simp only [need, rank, List.length_cons]; omega)
      refine .after passes (inner.andThen ?_).weaken
      intro inner rest behind shorter ahead
      exact (consume_agrees ahead _ _).map
    | number | string | bytes | identifier => exact .after passes (.done ahead)
    | keyword word =>
      cases word with
      | falseWord | trueWord | nilWord => exact .after passes (.done ahead)
      | _ => exact fail_agrees faces _ _
    | _ => exact fail_agrees faces _ _

theorem parameterList_follows (known : Known items (parameterList.need tokens) again)
    (faces : Window.Faces items tokens window) :
    parameterList.Follows items tokens (body again .parameterList) window := by
  simp only [Follows]
  unfold Grammar.parameterList
  refine (consume_agrees faces _ _).bind ?_
  intro first rest shorter behind ahead
  obtain ⟨absent, stays⟩ | ⟨comma, found, passes, further⟩ := accept_cases ahead (· == .comma)
  · rw [absent]
    exact .after stays (.give ahead shorter)
  · rw [found]
    have smaller := comma.shorter
    have others := known .parameterList comma.rest behind.advance further
      (by simp only [need, rank]; omega)
    exact .after passes ((Agrees.map others).carry.behind shorter)

theorem expressionBefore_agrees (known : Known items limit again)
    (faces : Window.Faces items tokens window) (enough : tokens.length * 40 + 16 < limit)
    (absent : TokenKind) :
    (expressionBefore again absent).Agrees items window
      (Grammar.expressionBefore (Feed.ofItems items).final absent tokens) := by
  unfold Grammar.expressionBefore
  refine .after (check_eq faces absent) ?_
  cases startsWith absent tokens with
  | true => exact .done faces
  | false => exact (known.expression faces enough).map.weaken

theorem initializer_agrees (known : Known items limit again)
    (faces : Window.Faces items tokens window) (enough : tokens.length * 40 + 16 < limit) :
    (initializer again).Agrees items window
      (Grammar.initializer (Feed.ofItems items).final tokens) := by
  unfold Grammar.initializer
  obtain ⟨absent, stays⟩ | ⟨equals, found, passes, further⟩ := accept_cases faces (· == .assign)
  · rw [absent]
    exact .after stays (.done faces)
  · rw [found]
    have smaller := equals.shorter
    exact .after passes (known.expression further (by omega)).map.carry.weaken

theorem variableRule_agrees (known : Known items limit again)
    (faces : Window.Faces items tokens window) (enough : tokens.length * 40 + 16 < limit) :
    (variableRule again).Agrees items window
      (Grammar.variableRule (Feed.ofItems items).final tokens) := by
  refine (consume_agrees faces _ _).andOptional ?_
  intro name rest behind shorter ahead
  refine (initializer_agrees known ahead (by omega)).andThen ?_
  intro value rest behind shorter ahead
  exact (consume_agrees ahead _ _).map

theorem expressionRule_agrees (known : Known items limit again)
    (faces : Window.Faces items tokens window) (enough : tokens.length * 40 + 16 < limit) :
    (expressionRule again).Agrees items window
      (Grammar.expressionRule (Feed.ofItems items).final tokens) := by
  refine (known.expression faces enough).andThen ?_
  intro value rest behind shorter ahead
  exact (consume_agrees ahead _ _).map

theorem printRule_agrees {keyword : Token} (known : Known items limit again)
    (faces : Window.Faces items (keyword :: tokens) window)
    (enough : tokens.length * 40 + 16 < limit) :
    (printRule again).Agrees items window
      (Grammar.printRule (Feed.ofItems items).final keyword tokens) := by
  refine .after (advance_cons faces) ((known.expression faces.advance.1 enough).andThen ?_)
  intro value rest behind shorter ahead
  exact (consume_agrees ahead _ _).map

theorem returnRule_agrees (known : Known items limit again)
    (faces : Window.Faces items tokens window) (enough : tokens.length * 40 + 16 < limit)
    (keyword : Token) :
    (returnRule again keyword).Agrees items window
      (Grammar.returnRule (Feed.ofItems items).final keyword tokens) := by
  refine (expressionBefore_agrees known faces enough _).andThen ?_
  intro value rest behind shorter ahead
  exact (consume_agrees ahead _ _).map

theorem condition_agrees (known : Known items limit again)
    (faces : Window.Faces items tokens window) (enough : tokens.length * 40 + 16 < limit)
    (keyword closing : String) :
    (condition again keyword closing).Agrees items window
      (Grammar.condition (Feed.ofItems items).final keyword closing tokens) := by
  refine (consume_agrees faces _ _).andThen ?_
  intro _ rest behind shorter ahead
  refine (known.expression ahead (by omega)).andThen ?_
  intro value rest behind shorter ahead
  exact (consume_agrees ahead _ _).map

theorem forInitializer_agrees (known : Known items limit again)
    (faces : Window.Faces items tokens window) (enough : tokens.length * 40 + 16 < limit) :
    (forInitializer again).Agrees items window
      (Grammar.forInitializer (Feed.ofItems items).final tokens) := by
  unfold Grammar.forInitializer
  obtain ⟨absent, stays⟩ | ⟨semicolon, found, passes, further⟩ :=
    accept_cases faces (· == .semicolon)
  · rw [absent]
    refine .after stays ?_
    obtain ⟨absent, stays⟩ | ⟨opening, found, passes, further⟩ :=
      accept_cases faces (· == .keyword .varWord)
    · rw [absent]
      exact .after stays (expressionRule_agrees known faces enough).map
    · rw [found]
      have smaller := opening.shorter
      exact .after passes (variableRule_agrees known further (by omega)).map.carry
  · rw [found]
    exact .after passes (.give further _)

theorem forHeader_agrees (known : Known items limit again)
    (faces : Window.Faces items tokens window) (enough : tokens.length * 40 + 16 < limit) :
    (forHeader again).Agrees items window
      (Grammar.forHeader (Feed.ofItems items).final tokens) := by
  refine (consume_agrees faces _ _).andThen ?_
  intro _ rest behind shorter ahead
  refine (forInitializer_agrees known ahead (by omega)).andOptional ?_
  intro initializer rest behind shorter ahead
  refine (expressionBefore_agrees known ahead (by omega) _).andThen ?_
  intro condition rest behind shorter ahead
  refine (consume_agrees ahead _ _).andOptional ?_
  intro _ rest behind shorter ahead
  refine (expressionBefore_agrees known ahead (by omega) _).andThen ?_
  intro increment rest behind shorter ahead
  exact (consume_agrees ahead _ _).map

theorem parameters_agrees (known : Known items limit again)
    (faces : Window.Faces items tokens window) (enough : tokens.length * 40 + 16 < limit) :
    (parameters again).Agrees items window
      (Grammar.parameters (Feed.ofItems items).final tokens) := by
  unfold Grammar.parameters
  refine .after (check_eq faces .rightParen) ?_
  cases startsWith .rightParen tokens with
  | true => exact .done faces
  | false =>
    have names := known .parameterList tokens window faces (by simp only [need, rank]; omega)
    refine (Agrees.bind names ?_).weaken
    intro names rest shorter behind ahead
    refine .after rfl ?_
    rw [ahead.current_eq]
    exact .note ahead shorter _

theorem functionHeader_agrees (known : Known items limit again)
    (faces : Window.Faces items tokens window) (enough : tokens.length * 40 + 16 < limit) :
    (functionHeader again).Agrees items window
      (Grammar.functionHeader (Feed.ofItems items).final tokens) := by
  refine (consume_agrees faces _ _).andThen ?_
  intro name rest behind shorter ahead
  refine (consume_agrees ahead _ _).andOptional ?_
  intro _ rest behind shorter ahead
  refine (parameters_agrees known ahead (by omega)).andThen ?_
  intro names rest behind shorter ahead
  refine (consume_agrees ahead _ _).andThen ?_
  intro _ rest behind shorter ahead
  exact (consume_agrees ahead _ _).map

/-- A print statement starts where the grammar sees one. -/
theorem atPrint_cons {token : Token} (faces : Window.Faces items (token :: tokens) window) :
    atPrint window = some ⟨.ok (startsPrint token tokens), [], window⟩ := by
  have next : (window.next.kind != .leftParen) = !startsWith .leftParen tokens := by
    rw [faces.next_eq]
    cases tokens with
    | nil =>
      show ((Feed.ofItems items).final.kind != _) = _
      rw [Feed.final_isEnd]
      rfl
    | cons token rest => rfl
  show some (Reply.mk (.ok (window.current.kind == .identifier && window.current.lexeme == "print" &&
    window.next.kind != .leftParen)) [] window) = _
  rw [faces.current_cons, next, startsPrint]

theorem atPrint_nil (faces : Window.Faces items [] window) :
    atPrint window = some ⟨.ok false, [], window⟩ := by
  show some (Reply.mk (.ok (window.current.kind == .identifier && window.current.lexeme == "print" &&
    window.next.kind != .leftParen)) [] window) = _
  rw [faces.kind_nil]
  rfl

theorem statement_follows (known : Known items (statement.need tokens) again)
    (faces : Window.Faces items tokens window) :
    statement.Follows items tokens (body again .statement) window := by
  simp only [Follows]
  refine .after rfl ?_
  unfold Grammar.statement
  cases tokens with
  | nil =>
    rw [faces.kind_nil]
    refine .after (atPrint_nil faces) ?_
    exact expressionRule_agrees known faces (by simp only [need, rank]; omega)
  | cons token tokens =>
    have passes := advance_cons faces
    have ahead := faces.advance.1
    rw [faces.current_cons]
    have enough : tokens.length * 40 + 16 < statement.need (token :: tokens) := by
      simp only [need, rank, List.length_cons]
      omega
    have inner (rest : List Token) (behind : Window) (shorter : rest.length < tokens.length)
        (ahead : Window.Faces items rest behind) :
        (again .statement).Agrees items behind
          (Grammar.statement (Feed.ofItems items).final rest) :=
      known .statement rest behind ahead (by simp only [need, rank, List.length_cons]; omega)
    have plainly : (atPrint >>= fun prints =>
        if prints then printRule again else expressionRule again).Agrees items window
        (if startsPrint token tokens then
            (Grammar.printRule (Feed.ofItems items).final token tokens).weaken
          else Grammar.expressionRule (Feed.ofItems items).final (token :: tokens)) := by
      refine .after (atPrint_cons faces) ?_
      cases startsPrint token tokens with
      | true => exact (printRule_agrees known faces enough).weaken
      | false => exact expressionRule_agrees known faces (by simp only [need, rank]; omega)
    dsimp only
    generalize token.kind = kind
    cases kind with
    | leftBrace =>
      have inside := known .block tokens window.advance ahead
        (by simp only [need, rank, List.length_cons]; omega)
      exact .after passes (Agrees.map inside)
    | keyword word =>
      cases word with
      | forWord =>
        refine .after passes ((forHeader_agrees known ahead enough).bind ?_).weaken
        intro header rest shorter behind ahead
        exact (inner rest behind shorter ahead).map.behind shorter
      | ifWord =>
        refine .after passes ((condition_agrees known ahead enough _ _).bind ?_).weaken
        intro condition rest shorter behind ahead
        refine ((inner rest behind shorter ahead).behind shorter).bind ?_
        intro consequent rest shorter behind ahead
        obtain ⟨absent, stays⟩ | ⟨opening, found, passes, further⟩ :=
          accept_cases ahead (· == .keyword .elseWord)
        · rw [absent]
          exact .after stays (.give ahead shorter)
        · rw [found]
          have smaller := opening.shorter
          have alternative := inner opening.rest behind.advance (by omega) further
          exact .after passes (alternative.map.carry.behind shorter)
      | returnWord => exact .after passes (returnRule_agrees known ahead enough token)
      | whileWord =>
        refine .after passes ((condition_agrees known ahead enough _ _).bind ?_).weaken
        intro condition rest shorter behind ahead
        exact (inner rest behind shorter ahead).map.behind shorter
      | _ => exact plainly
    | _ => exact plainly

theorem plainDeclaration_follows (known : Known items (plainDeclaration.need tokens) again)
    (faces : Window.Faces items tokens window) :
    plainDeclaration.Follows items tokens (body again .plainDeclaration) window := by
  simp only [Follows]
  unfold Grammar.declaration
  obtain ⟨absent, stays⟩ | ⟨opening, found, passes, further⟩ :=
    accept_cases faces (· == .keyword .funWord)
  · rw [absent]
    refine .after stays ?_
    obtain ⟨absent, stays⟩ | ⟨opening, found, passes, further⟩ :=
      accept_cases faces (· == .keyword .varWord)
    · rw [absent]
      exact .after stays (known .statement tokens window faces (by simp only [need, rank]; omega))
    · rw [found]
      have smaller := opening.shorter
      have rule := variableRule_agrees known further (by simp only [need, rank]; omega)
      exact .after passes rule.carry
  · rw [found]
    have smaller := opening.shorter
    have header := functionHeader_agrees known further (by simp only [need, rank]; omega)
    refine .after passes (header.carry.bind ?_)
    intro header rest shorter behind ahead
    have inside := known .block rest behind ahead (by simp only [need, rank]; omega)
    exact (Agrees.map inside).lift shorter

/-- Whether a window is at the end. -/
theorem atEnd_eq (faces : Window.Faces items tokens window) :
    atEnd window = some ⟨.ok tokens.isEmpty, [], window⟩ := by
  show some (Reply.mk (.ok (window.current.kind == .endOfInput)) [] window) = _
  cases tokens with
  | nil =>
    rw [faces.kind_nil]
    rfl
  | cons token rest =>
    rw [faces.current_cons, beq_eq_false_iff_ne.2 faces.kind_ne]
    rfl

theorem resume_follows (known : Known items (resume.need tokens) again)
    (faces : Window.Faces items tokens window) :
    resume.Follows items tokens (body again .resume) window := by
  simp only [Follows]
  refine .after (atEnd_eq faces) ?_
  cases tokens with
  | nil => exact .give faces _
  | cons token rest =>
    refine .after rfl (.after rfl ?_)
    have before : (window.previous.any fun token => token.kind == .semicolon) =
        ((window.previous.getD (Feed.ofItems items).final).kind == .semicolon) := by
      cases window.previous with
      | none =>
        rw [Option.getD_none, Feed.final_isEnd]
        rfl
      | some token => rfl
    simp only [before, faces.current_cons, Grammar.resume]
    split
    · exact .ok rfl faces
    · have later := known .resume rest window.advance faces.advance.1
        (by simp only [need, rank, List.length_cons]; omega)
      simp only [Follows, faces.advance.2, Option.getD_some] at later
      obtain ⟨ran, ahead⟩ := later
      exact .ok ((bind_of_ok (advance_cons faces)).trans ran) ahead

/-- Going on behind an error passes what the grammar drops. -/
theorem recover_follows (known : Known items limit again) (faces : Window.Faces items tokens window)
    (enough : tokens.length * 40 < limit) :
    ∃ token between behind, advance window = some ⟨.ok token, [], between⟩ ∧
      again .resume between = some ⟨.ok (), [], behind⟩ ∧
      Window.Faces items (Grammar.recover tokens) behind := by
  cases tokens with
  | nil =>
    have stays : advance window = some ⟨.ok window.passed, [], window⟩ := by
      rw [advance, faces.advance_nil]
    have later := known .resume [] window faces enough
    obtain ⟨ran, ahead⟩ := later
    exact ⟨_, _, _, stays, ran, ahead⟩
  | cons token rest =>
    have later := known .resume rest window.advance faces.advance.1
      (by simp only [need, rank]; rw [List.length_cons] at enough; omega)
    simp only [Follows, faces.advance.2, Option.getD_some] at later
    obtain ⟨ran, ahead⟩ := later
    exact ⟨_, _, _, advance_cons faces, ran, ahead⟩

theorem declaration_follows (known : Known items (declaration.need tokens) again)
    (faces : Window.Faces items tokens window) :
    declaration.Follows items tokens (body again .declaration) window := by
  simp only [Follows]
  have tried := known .plainDeclaration tokens window faces (by simp only [need, rank]; omega)
  simp only [Follows] at tried
  unfold Grammar.recovered
  generalize Grammar.declaration (Feed.ofItems items).final tokens = step at tried
  cases tried with
  | @ok statement noted rest shorter behind ran ahead =>
    have attempted : attempt (again .plainDeclaration) window =
        some ⟨.ok (.ok statement), noted, behind⟩ := by rw [attempt, ran]; rfl
    refine .ok ((bind_of_ran attempted).trans ?_) ahead
    show some (Reply.mk (.ok (some statement)) (noted ++ []) behind) = _
    rw [List.append_nil]
  | @fail error noted rest within behind ran ahead =>
    have attempted : attempt (again .plainDeclaration) window =
        some ⟨.ok (.error error), noted, behind⟩ := by rw [attempt, ran]; rfl
    obtain ⟨token, between, further, passed, resumed, faces⟩ := recover_follows known ahead
      (by simp only [need, rank]; omega)
    have noting : note [error] behind = some ⟨.ok (), [error], behind⟩ := rfl
    refine .ok ((bind_of_ran attempted).trans ?_) faces
    dsimp only
    rw [bind_of_ran noting, bind_of_ok passed, bind_of_ok resumed]
    rfl

theorem declarations_follows {inBlock : Bool}
    (known : Known items ((declarations inBlock).need tokens) again)
    (faces : Window.Faces items tokens window) :
    (declarations inBlock).Follows items tokens (body again (.declarations inBlock)) window := by
  simp only [Follows]
  refine .after (atEnd_eq faces) ?_
  cases tokens with
  | nil =>
    unfold Grammar.declarations
    exact .ok rfl faces
  | cons token rest =>
    refine .after rfl ?_
    rw [faces.current_cons]
    have first := known .declaration (token :: rest) window faces (by simp only [need, rank]; omega)
    have others (after : List Token) (behind : Window) (shorter : after.length < rest.length + 1)
        (ahead : Window.Faces items after behind) :
        (again (.declarations inBlock)).Agrees items behind
          (Grammar.declarations (Feed.ofItems items).final inBlock after).step :=
      known (.declarations inBlock) after behind ahead
        (by simp only [need, rank, List.length_cons]; omega)
    simp only [Follows, Grammar.recovered] at first
    unfold Grammar.declarations
    dsimp only
    cases inBlock && token.kind == .rightBrace with
    | true => exact .ok rfl faces
    | false =>
      generalize Grammar.declaration (Feed.ofItems items).final (token :: rest) = step at first
      cases step with
      | ok statement noted after shorter =>
        obtain ⟨ran, ahead⟩ := first
        obtain ⟨also, further⟩ := others after _ shorter ahead
        refine .ok ((bind_of_ran ran).trans ?_) further
        rw [bind_of_ran also]
        simp [pure, give]
      | fail error noted after within =>
        obtain ⟨ran, ahead⟩ := first
        have shorter : (Grammar.recover after).length < rest.length + 1 :=
          Grammar.length_recover_lt within (Nat.succ_pos _)
        obtain ⟨also, further⟩ := others (Grammar.recover after) _ shorter ahead
        refine .ok ((bind_of_ran ran).trans ?_) further
        rw [bind_of_ran also]
        simp [pure, give]

theorem block_follows (known : Known items (block.need tokens) again)
    (faces : Window.Faces items tokens window) :
    block.Follows items tokens (body again .block) window := by
  have inside := known (.declarations true) tokens window faces (by simp only [need, rank]; omega)
  simp only [Follows] at inside ⊢
  rw [Grammar.block_eq]
  refine inside.andThen ?_
  intro statements rest behind shorter ahead
  exact (consume_agrees ahead _ _).map

/-- Given rules that follow the grammar where less is needed, each rule follows it. -/
theorem body_follows {α : Type} (rule : Rule α) (known : Known items (rule.need tokens) again)
    (faces : Window.Faces items tokens window) :
    rule.Follows items tokens (body again rule) window := by
  cases rule with
  | expression => exact expression_follows known faces
  | chain level => exact chain_follows known faces
  | chainRest level left => exact chainRest_follows known faces
  | operand level => exact operand_follows known faces
  | unary => exact unary_follows known faces
  | call => exact call_follows known faces
  | callRest callee => exact callRest_follows known faces
  | arguments => exact arguments_follows known faces
  | argumentList => exact argumentList_follows known faces
  | increment => exact increment_follows known faces
  | primary => exact primary_follows known faces
  | parameterList => exact parameterList_follows known faces
  | statement => exact statement_follows known faces
  | plainDeclaration => exact plainDeclaration_follows known faces
  | resume => exact resume_follows known faces
  | declaration => exact declaration_follows known faces
  | declarations inBlock => exact declarations_follows known faces
  | block => exact block_follows known faces

end Bodies

/-- Run with more fuel than they need, all rules follow the grammar. -/
theorem run_known (items : List Item) (fuel : Nat) : Known items fuel (run fuel) := by
  induction fuel with
  | zero =>
    intro α rule tokens window faces enough
    exact absurd enough (Nat.not_lt_zero _)
  | succ fuel ih =>
    intro α rule tokens window faces enough
    refine body_follows rule ?_ faces
    intro β other rest behind ahead less
    exact ih other rest behind ahead (Nat.lt_of_lt_of_le less (Nat.le_of_lt_succ enough))

end Rule

end TinyScript
