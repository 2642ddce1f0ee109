import TinyScript.Proofs.LikeExpression

/-! Token lists that correspond token by token have like statements, with corresponding errors at
corresponding places; recovery from errors goes on at corresponding places too. -/
namespace TinyScript

variable {same : Correspondence}

namespace Grammar

variable {final final' : Token}

section Rules

variable (ends : same.tokens final final') {tokens tokens' : List Token}
variable (alike : List.Forall₂ same.tokens tokens tokens')
include ends alike

theorem expressionBefore_alike (absent : TokenKind) :
    (expressionBefore final absent tokens).Like same (Option.Rel (Expr.Like same.likeness))
      (expressionBefore final' absent tokens') := by
  unfold expressionBefore
  rw [startsWith_eq alike]
  split
  · exact .done .none alike
  · exact ((expression_alike ends tokens alike).map fun _ _ value => .some value).weaken

theorem initializer_alike :
    (initializer final tokens).Like same (Option.Rel (Expr.Like same.likeness))
      (initializer final' tokens') := by
  unfold initializer
  obtain ⟨absent, absent'⟩ | ⟨equals, equals', found, found', _, behind⟩ :=
    take?_alike alike (· == .assign)
  · rw [absent, absent']
    exact .done .none alike
  · rw [found, found']
    exact ((expression_alike ends _ behind).map fun _ _ value => .some value).carry.weaken

theorem variableRule_alike :
    (variableRule final tokens).Like same (Stmt.Like same.likeness)
      (variableRule final' tokens') := by
  refine (expect_alike alike ends _ _).andOptional ?_
  intro name name' rest rest' named ahead
  refine (initializer_alike ends ahead).andThen ?_
  intro value value' rest rest' given ahead
  exact (expect_alike ahead ends _ _).map fun _ _ _ => .declare named given

theorem expressionRule_alike :
    (expressionRule final tokens).Like same (Stmt.Like same.likeness)
      (expressionRule final' tokens') := by
  refine (expression_alike ends tokens alike).andThen ?_
  intro value value' rest rest' given ahead
  exact (expect_alike ahead ends _ _).map fun _ _ _ => .expression given

theorem printRule_alike {keyword keyword' : Token} (opens : same.tokens keyword keyword') :
    (printRule final keyword tokens).Like same (Stmt.Like same.likeness)
      (printRule final' keyword' tokens') := by
  refine (expression_alike ends tokens alike).andThen ?_
  intro value value' rest rest' given ahead
  refine (expect_alike ahead ends _ _).map ?_
  intro semicolon semicolon' closes
  exact .expression (.call (.var (same.synthetic _ _ opens)) (same.synthetic _ _ closes)
    (.cons given .nil))

theorem returnRule_alike {keyword keyword' : Token} (opens : same.tokens keyword keyword') :
    (returnRule final keyword tokens).Like same (Stmt.Like same.likeness)
      (returnRule final' keyword' tokens') := by
  refine (expressionBefore_alike ends alike _).andThen ?_
  intro value value' rest rest' given ahead
  exact (expect_alike ahead ends _ _).map fun _ _ _ => .ret opens given

theorem condition_alike (keyword closing : String) :
    (condition final keyword closing tokens).Like same (Expr.Like same.likeness)
      (condition final' keyword closing tokens') := by
  refine (expect_alike alike ends _ _).andThen ?_
  intro _ _ rest rest' _ ahead
  refine (expression_alike ends rest ahead).andThen ?_
  intro value value' rest rest' given ahead
  exact (expect_alike ahead ends _ _).map fun _ _ _ => given

theorem forInitializer_alike :
    (forInitializer final tokens).Like same (Option.Rel (Stmt.Like same.likeness))
      (forInitializer final' tokens') := by
  unfold forInitializer
  obtain ⟨absent, absent'⟩ | ⟨semicolon, semicolon', found, found', _, behind⟩ :=
    take?_alike alike (· == .semicolon)
  · rw [absent, absent']
    obtain ⟨absent, absent'⟩ | ⟨opening, opening', found, found', _, behind⟩ :=
      take?_alike alike (· == .keyword .varWord)
    · rw [absent, absent']
      exact (expressionRule_alike ends alike).map fun _ _ given => .some given
    · rw [found, found']
      exact ((variableRule_alike ends behind).map fun _ _ given => .some given).carry
  · rw [found, found']
    exact .ok .none .nil behind

end Rules

end Grammar

/-- The headers have like parts. -/
structure ForHeader.Like (like : Likeness) (header other : ForHeader) : Prop where
  initializer : Option.Rel (Stmt.Like like) header.initializer other.initializer
  condition : Option.Rel (Expr.Like like) header.condition other.condition
  increment : Option.Rel (Expr.Like like) header.increment other.increment

theorem ForHeader.Like.loop {like : Likeness} {header header' : ForHeader}
    (heads : header.Like like header') {body body' : Stmt} (same : body.Like like body') :
    (header.loop body).Like like (header'.loop body') := by
  obtain ⟨initializer, condition, increment⟩ := header
  obtain ⟨initializer', condition', increment'⟩ := header'
  obtain ⟨starts, tested, counted⟩ := heads
  dsimp only at starts tested counted
  have test : (condition.getD (.literal (.bool true))).Like like
      (condition'.getD (.literal (.bool true))) := by
    cases tested with
    | some tested => exact tested
    | none => exact .literal _
  cases counted with
  | some counted =>
    have turns := Stmt.Like.loop test (.block (.cons same (.cons (.expression counted) .nil)))
    cases starts with
    | some starts => exact .block (.cons starts (.cons turns .nil))
    | none => exact turns
  | none =>
    have turns := Stmt.Like.loop test same
    cases starts with
    | some starts => exact .block (.cons starts (.cons turns .nil))
    | none => exact turns

/-- The headers have like names. -/
structure FunctionHeader.Like (same : Correspondence) (header other : FunctionHeader) : Prop where
  name : same.tokens header.name other.name
  parameters : List.Forall₂ same.tokens header.parameters other.parameters

/-- The same statements and errors but for the tokens, and corresponding tokens left. -/
structure Statements.Like (same : Correspondence) {limit limit' : Nat}
    (parsed : Statements limit) (other : Statements limit') : Prop where
  statements : List.Forall₂ (Stmt.Like same.likeness) parsed.statements other.statements
  errors : List.Forall₂ (SyntaxError.Like same) parsed.errors other.errors
  rest : List.Forall₂ same.tokens parsed.rest other.rest

theorem startsPrint_alike {token token' : Token} (first : same.tokens token token')
    {rest rest' : List Token} (ahead : List.Forall₂ same.tokens rest rest') :
    startsPrint token rest = startsPrint token' rest' := by
  rw [startsPrint, startsPrint, same.kind_eq first, same.lexeme_eq first, startsWith_eq ahead]

namespace Grammar

theorem resume_alike {dropped dropped' : Token} (before : same.tokens dropped dropped')
    {tokens tokens' : List Token} (alike : List.Forall₂ same.tokens tokens tokens') :
    List.Forall₂ same.tokens (resume dropped tokens) (resume dropped' tokens') := by
  induction alike generalizing dropped dropped' with
  | nil => exact .nil
  | cons first others ih =>
    rw [resume, resume, same.kind_eq before, same.kind_eq first]
    split
    · exact .cons first others
    · exact ih first

theorem recover_alike {tokens tokens' : List Token}
    (alike : List.Forall₂ same.tokens tokens tokens') :
    List.Forall₂ same.tokens (recover tokens) (recover tokens') := by
  cases alike with
  | nil => exact .nil
  | cons first others => exact resume_alike first others

variable {final final' : Token}

theorem parameterList_alike (ends : same.tokens final final') (tokens : List Token)
    {tokens' : List Token} (alike : List.Forall₂ same.tokens tokens tokens') :
    (parameterList final tokens).Like same (List.Forall₂ same.tokens)
      (parameterList final' tokens') := by
  unfold parameterList
  refine (expect_alike alike ends _ _).bind ?_
  intro first first' rest rest' shorter shorter' named ahead
  obtain ⟨absent, absent'⟩ | ⟨comma, comma', found, found', _, behind⟩ :=
    take?_alike ahead (· == .comma)
  · rw [absent, absent']
    exact .ok (.cons named .nil) .nil ahead
  · rw [found, found']
    have smaller := comma.shorter
    exact ((parameterList_alike ends comma.rest behind).map
      fun _ _ others => .cons named others).carry.behind _ _
termination_by tokens.length
decreasing_by omega

section Headers

variable (ends : same.tokens final final') {tokens tokens' : List Token}
variable (alike : List.Forall₂ same.tokens tokens tokens')
include ends alike

theorem parameters_alike :
    (parameters final tokens).Like same (List.Forall₂ same.tokens)
      (parameters final' tokens') := by
  unfold parameters
  rw [startsWith_eq alike]
  split
  · exact .done .nil alike
  · refine ((parameterList_alike ends tokens alike).bind ?_).weaken
    intro names names' rest rest' shorter shorter' given ahead
    exact .ok given (lengthErrors_alike _ given.length_eq (current_alike ahead ends)) ahead

theorem functionHeader_alike :
    (functionHeader final tokens).Like same (FunctionHeader.Like same)
      (functionHeader final' tokens') := by
  refine (expect_alike alike ends _ _).andThen ?_
  intro name name' rest rest' named ahead
  refine (expect_alike ahead ends _ _).andOptional ?_
  intro _ _ rest rest' _ ahead
  refine (parameters_alike ends ahead).andThen ?_
  intro names names' rest rest' given ahead
  refine (expect_alike ahead ends _ _).andThen ?_
  intro _ _ rest rest' _ ahead
  exact (expect_alike ahead ends _ _).map fun _ _ _ => ⟨named, given⟩

theorem forHeader_alike :
    (forHeader final tokens).Like same (ForHeader.Like same.likeness)
      (forHeader final' tokens') := by
  refine (expect_alike alike ends _ _).andThen ?_
  intro _ _ rest rest' _ ahead
  refine (forInitializer_alike ends ahead).andOptional ?_
  intro initializer initializer' rest rest' starts ahead
  refine (expressionBefore_alike ends ahead _).andThen ?_
  intro condition condition' rest rest' tested ahead
  refine (expect_alike ahead ends _ _).andOptional ?_
  intro _ _ rest rest' _ ahead
  refine (expressionBefore_alike ends ahead _).andThen ?_
  intro increment increment' rest rest' counted ahead
  exact (expect_alike ahead ends _ _).map fun _ _ _ => ⟨starts, tested, counted⟩

end Headers

mutual
theorem declaration_alike (ends : same.tokens final final') (tokens : List Token)
    {tokens' : List Token} (alike : List.Forall₂ same.tokens tokens tokens') :
    (declaration final tokens).Like same (Stmt.Like same.likeness)
      (declaration final' tokens') := by
  unfold declaration
  obtain ⟨absent, absent'⟩ | ⟨opening, opening', found, found', _, behind⟩ :=
    take?_alike alike (· == .keyword .funWord)
  · rw [absent, absent']
    obtain ⟨absent, absent'⟩ | ⟨opening, opening', found, found', _, behind⟩ :=
      take?_alike alike (· == .keyword .varWord)
    · rw [absent, absent']
      exact statement_alike ends tokens alike
    · rw [found, found']
      exact (variableRule_alike ends behind).carry
  · rw [found, found']
    have smaller := opening.shorter
    refine (functionHeader_alike ends behind).carry.bind ?_
    intro header header' rest rest' shorter shorter' heads ahead
    exact ((block_alike ends rest ahead).map
      fun _ _ body => .function heads.name heads.parameters body).lift _ _
termination_by tokens.length * 4 + 1
decreasing_by all_goals omega

theorem statement_alike (ends : same.tokens final final') (tokens : List Token)
    {tokens' : List Token} (alike : List.Forall₂ same.tokens tokens tokens') :
    (statement final tokens).Like same (Stmt.Like same.likeness) (statement final' tokens') := by
  match tokens, tokens', alike with
  | [], [], .nil =>
    unfold statement
    exact expressionRule_alike ends .nil
  | token :: rest, token' :: rest', .cons first others =>
    unfold statement
    rw [same.kind_eq first, startsPrint_alike first others]
    dsimp only
    split
    · refine ((forHeader_alike ends others).bind ?_).weaken
      intro header header' rest rest' shorter shorter' heads ahead
      exact ((statement_alike ends rest ahead).map fun _ _ body => heads.loop body).behind _ _
    · refine ((condition_alike ends others _ _).bind ?_).weaken
      intro condition condition' rest rest' shorter shorter' tested ahead
      refine ((statement_alike ends rest ahead).behind _ _).bind ?_
      intro consequent consequent' rest rest' shorter shorter' given ahead
      obtain ⟨absent, absent'⟩ | ⟨opening, opening', found, found', _, behind⟩ :=
        take?_alike ahead (· == .keyword .elseWord)
      · rw [absent, absent']
        exact .ok (.branch tested given .none) .nil ahead
      · rw [found, found']
        have smaller := opening.shorter
        exact ((statement_alike ends opening.rest behind).map
          fun _ _ otherwise => .branch tested given (.some otherwise)).carry.behind _ _
    · exact returnRule_alike ends others first
    · refine ((condition_alike ends others _ _).bind ?_).weaken
      intro condition condition' rest rest' shorter shorter' tested ahead
      exact ((statement_alike ends rest ahead).map fun _ _ body => .loop tested body).behind _ _
    · exact (block_alike ends rest others).map fun _ _ body => .block body
    · split
      · exact (printRule_alike ends others first).weaken
      · exact expressionRule_alike ends (.cons first others)
termination_by tokens.length * 4
decreasing_by all_goals simp only [List.length_cons]; omega

theorem block_alike (ends : same.tokens final final') (tokens : List Token)
    {tokens' : List Token} (alike : List.Forall₂ same.tokens tokens tokens') :
    (block final tokens).Like same (List.Forall₂ (Stmt.Like same.likeness))
      (block final' tokens') := by
  have inside := declarations_alike ends true tokens alike
  have closed := expect_alike inside.rest ends .rightBrace "'\x7d' after block"
  unfold block
  dsimp only
  revert closed
  generalize expect final .rightBrace "'\x7d' after block" (declarations final true tokens).rest =
    outcome, expect final' .rightBrace "'\x7d' after block"
      (declarations final' true tokens').rest = outcome'
  intro closed
  cases closed with
  | ok _ noted left => exact .ok inside.statements (List.rel_append inside.errors noted) left
  | fail stopped noted left => exact .fail stopped (List.rel_append inside.errors noted) left
termination_by tokens.length * 4 + 3
decreasing_by omega

theorem declarations_alike (ends : same.tokens final final') (inBlock : Bool)
    (tokens : List Token) {tokens' : List Token}
    (alike : List.Forall₂ same.tokens tokens tokens') :
    (declarations final inBlock tokens).Like same (declarations final' inBlock tokens') := by
  match tokens, tokens', alike with
  | [], [], .nil =>
    unfold declarations
    exact ⟨.nil, .nil, .nil⟩
  | token :: rest, token' :: rest', .cons first others =>
    have head := declaration_alike ends (token :: rest) (.cons first others)
    unfold declarations
    rw [same.kind_eq first]
    dsimp only
    split
    · exact ⟨.nil, .nil, .cons first others⟩
    · revert head
      generalize declaration final (token :: rest) = outcome,
        declaration final' (token' :: rest') = outcome'
      intro head
      cases head with
      | @ok statement statement' noted noted' after after' shorter shorter' given errors left =>
        have smaller : after.length < rest.length + 1 := shorter
        have more := declarations_alike ends inBlock after left
        exact ⟨.cons given more.statements, List.rel_append errors more.errors, more.rest⟩
      | @fail error error' noted noted' after after' within within' stopped errors left =>
        -- Both sides drop as many tokens before they go on.
        have smaller : (recover after).length < rest.length + 1 :=
          length_recover_lt within (Nat.succ_pos _)
        have more := declarations_alike ends inBlock (recover after) (recover_alike left)
        exact ⟨more.statements, List.rel_append errors (.cons stopped more.errors), more.rest⟩
termination_by tokens.length * 4 + 2
decreasing_by all_goals simp only [List.length_cons]; omega
end

end Grammar

end TinyScript
