import TinyScript.Proofs.PhraseSound
import TinyScript.Proofs.Sentence

/-! Statements that are read without an error have a derivation, which accounts for every token
that was taken. -/
namespace TinyScript.Grammar

open Phrase

variable {final : Token} {tokens rest : List Token}

theorem expressionBefore_sound {absent : TokenKind} {value : Option Expr}
    (reads : (expressionBefore final absent tokens).Reads value rest) :
    ∃ phrase, (∀ present, phrase = some present → Derives IsName .assignment present) ∧
      tokens = optionalTokens phrase ++ rest ∧ phrase.map expr = value := by
  rcases reads_expressionBefore.1 reads with ⟨_, rfl, rfl⟩ | ⟨_, present, rfl, inner⟩
  · exact ⟨none, by simp, rfl, rfl⟩
  · obtain ⟨phrase, derives, taken, rfl⟩ := expression_sound tokens inner
    exact ⟨some phrase, by simpa using derives, taken, rfl⟩

theorem variableRule_sound {keyword : Token} {statement : Stmt}
    (isVar : keyword.kind = .keyword .varWord)
    (reads : (variableRule final tokens).Reads statement rest) :
    ∃ tree : VariableTree, tree.Derives IsName ∧ keyword :: tokens = tree.tokens ++ rest ∧
      tree.stmt = statement := by
  obtain ⟨name, more, value, semicolon, rfl, isName, inner, closed, rfl⟩ :=
    reads_variableRule.1 reads
  rcases reads_initializer.1 inner with
    ⟨_, rfl, rfl⟩ | ⟨equals, behind, initial, rfl, isAssign, rfl, front⟩
  · exact ⟨⟨keyword, name, none, semicolon⟩, ⟨isVar, isName, by simp, closed⟩, rfl, rfl⟩
  · obtain ⟨phrase, derives, taken, rfl⟩ := expression_sound behind front
    refine ⟨⟨keyword, name, some (equals, phrase), semicolon⟩, ⟨isVar, isName, ?_, closed⟩, ?_, rfl⟩
    · rintro _ _ ⟨⟩
      exact ⟨isAssign, derives⟩
    · simp [VariableTree.tokens, taken]

theorem condition_sound {word : Keyword} {keyword : Token} {after closing : String} {value : Expr}
    (isWord : keyword.kind = .keyword word)
    (reads : (condition final after closing tokens).Reads value rest) :
    ∃ tree : ConditionTree, tree.Derives IsName word ∧ keyword :: tokens = tree.tokens ++ rest ∧
      tree.value.expr = value := by
  obtain ⟨opening, more, last, rfl, opened, inner, closed⟩ := reads_condition.1 reads
  obtain ⟨phrase, derives, taken, rfl⟩ := expression_sound more inner
  refine ⟨⟨keyword, opening, phrase, last⟩, ⟨isWord, opened, derives, closed⟩, ?_, rfl⟩
  simp [ConditionTree.tokens, taken]

theorem forInitializer_sound {value : Option Stmt}
    (reads : (forInitializer final tokens).Reads value rest) :
    ∃ start : ForStart, start.Derives IsName ∧ tokens = start.tokens ++ rest ∧
      start.stmt? = value := by
  rcases reads_forInitializer.1 reads with ⟨semicolon, rfl, closed, rfl⟩ |
    ⟨keyword, more, statement, rfl, isVar, inner, rfl⟩ | ⟨_, _, statement, inner, rfl⟩
  · exact ⟨.absent semicolon, .absent closed, rfl, rfl⟩
  · obtain ⟨tree, derives, taken, rfl⟩ := variableRule_sound isVar inner
    exact ⟨.declare tree, .declare derives, taken, rfl⟩
  · obtain ⟨value, semicolon, front, closed, rfl⟩ := reads_expressionRule.1 inner
    obtain ⟨phrase, derives, taken, rfl⟩ := expression_sound tokens front
    refine ⟨.expression phrase semicolon, .expression derives closed, ?_, rfl⟩
    simp [ForStart.tokens, taken]

theorem forHeader_sound {keyword : Token} {header : ForHeader}
    (isFor : keyword.kind = .keyword .forWord)
    (reads : (forHeader final tokens).Reads header rest) :
    ∃ tree : ForTree, tree.Derives IsName ∧ keyword :: tokens = tree.tokens ++ rest ∧
      tree.header = header := by
  obtain ⟨opening, more, middle, semicolon, behind, closing, rfl, opened, first, second, divided,
    third, closed⟩ := reads_forHeader.1 reads
  obtain ⟨start, begins, startTaken, startSame⟩ := forInitializer_sound first
  obtain ⟨condition, conditionDerives, conditionTaken, conditionSame⟩ :=
    expressionBefore_sound second
  obtain ⟨increment, incrementDerives, incrementTaken, incrementSame⟩ :=
    expressionBefore_sound third
  refine ⟨⟨keyword, opening, start, condition, semicolon, increment, closing⟩,
    ⟨isFor, opened, begins, conditionDerives, divided, incrementDerives, closed⟩, ?_, ?_⟩
  · simp [ForTree.tokens, startTaken, conditionTaken, incrementTaken]
  · simp only [ForTree.header, startSame, conditionSame, incrementSame]

theorem parameterList_sound (tokens : List Token) {names rest : List Token}
    (reads : (parameterList final tokens).Reads names rest) :
    names ≠ [] ∧ (∀ name ∈ names, name.kind = .identifier) ∧
      ∃ commas, commas.length = names.length - 1 ∧ (∀ comma ∈ commas, comma.kind = .comma) ∧
        tokens = separated (names.map ([·])) commas ++ rest := by
  obtain ⟨first, middle, shape, isName, choice⟩ := reads_parameterList.1 reads
  rcases choice with ⟨_, rfl, rfl⟩ | ⟨comma, more, others, rfl, isComma, inner, rfl⟩
  · exact ⟨by simp, by simpa using isName, [], by simp [separated, shape]⟩
  · have shorter : more.length < tokens.length := by
      rw [shape, List.length_cons, List.length_cons]
      omega
    obtain ⟨nonempty, areNames, commas, between, areCommas, taken⟩ := parameterList_sound more inner
    refine ⟨by simp, by simpa using ⟨isName, areNames⟩, comma :: commas, ?_, ?_, ?_⟩
    · cases others with
      | nil => exact absurd rfl nonempty
      | cons second others => simpa using between
    · simpa using ⟨isComma, areCommas⟩
    · cases others with
      | nil => exact absurd rfl nonempty
      | cons second others => simp [shape, taken, separated]
termination_by tokens.length

theorem functionHeader_sound {keyword : Token} {header : FunctionHeader}
    (isFun : keyword.kind = .keyword .funWord)
    (reads : (functionHeader final tokens).Reads header rest) :
    ∃ tree : FunctionTree, tree.Derives ∧ keyword :: tokens = tree.tokens ++ rest ∧
      tree.name = header.name ∧ tree.parameters = header.parameters := by
  obtain ⟨opening, more, closing, brace, rfl, isName, opened, inner, closed, braced⟩ :=
    reads_functionHeader.1 reads
  rcases reads_parameters.1 inner with ⟨_, empty, rfl⟩ | ⟨_, short, listed⟩
  · refine ⟨⟨keyword, header.name, opening, [], [], closing, brace⟩,
      ⟨isFun, isName, opened, by simp, rfl, by simp, by simp [listLimit], closed, braced⟩,
      rfl, rfl, empty.symm⟩
  · obtain ⟨_, areNames, commas, between, areCommas, taken⟩ := parameterList_sound more listed
    refine ⟨⟨keyword, header.name, opening, header.parameters, commas, closing, brace⟩,
      ⟨isFun, isName, opened, areNames, between, areCommas, short, closed, braced⟩, ?_, rfl, rfl⟩
    simp [FunctionTree.tokens, taken]

/-- The tokens are what a sentence at the given place takes, followed by the rest. An `else` that
follows does not belong to it. -/
def SpellsSentence (slot : Slot) (tokens : List Token) (statement : Stmt) (rest : List Token) :
    Prop :=
  ∃ sentence : Sentence, sentence.Derives IsName true slot ∧ tokens = sentence.tokens ++ rest ∧
    sentence.stmt = statement ∧
    (sentence.takesElse = true → starts (· == .keyword .elseWord) rest = false)

/-- Declarations one after another, followed by the rest. -/
def SpellsBody (tokens : List Token) (statements : List Stmt) (rest : List Token) : Prop :=
  ∃ body : List Sentence, (∀ sentence ∈ body, sentence.Derives IsName true .declaration) ∧
    tokens = Sentence.allTokens body ++ rest ∧ Sentence.stmts body = statements

/-- A statement that starts like an expression is one, or a print statement. -/
theorem plain_sound {first : Token} {statement : Stmt} (plain : opensStatement first.kind = false)
    (reads : (Grammar.statement final (first :: tokens)).Reads statement rest) :
    SpellsSentence .statement (first :: tokens) statement rest := by
  rcases (reads_plain plain).1 reads with ⟨prints, inner⟩ | ⟨silent, inner⟩
  · obtain ⟨value, semicolon, front, closed, rfl⟩ := reads_printRule.1 inner
    obtain ⟨phrase, derives, taken, rfl⟩ := expression_sound tokens front
    have whole : first :: tokens = (first :: phrase.tokens ++ [semicolon]) ++ rest := by simp [taken]
    refine ⟨.print first phrase semicolon, .print derives closed ?_, whole, rfl,
      by simp [Sentence.takesElse]⟩
    rw [← opensPrint_append (by simp) rest, ← whole]
    exact prints
  · obtain ⟨value, semicolon, front, closed, rfl⟩ := reads_expressionRule.1 inner
    obtain ⟨phrase, derives, taken, rfl⟩ := expression_sound (first :: tokens) front
    have whole : first :: tokens = (phrase.tokens ++ [semicolon]) ++ rest := by simp [taken]
    obtain ⟨token, others, shape, _⟩ := derives.opens
    refine ⟨.expression phrase semicolon, .expression derives closed ?_, whole, rfl,
      by simp [Sentence.takesElse]⟩
    rw [← opensPrint_append (by simp [shape]) rest, ← whole]
    exact silent

mutual
theorem declaration_sound (tokens : List Token) {statement : Stmt} {rest : List Token}
    (reads : (declaration final tokens).Reads statement rest) :
    SpellsSentence .declaration tokens statement rest := by
  rcases reads_declaration.1 reads with
    ⟨keyword, more, header, middle, body, shape, isFun, front, inner, rfl⟩ |
    ⟨keyword, more, shape, isVar, inner⟩ | ⟨_, _, inner⟩
  · have smaller : more.length < tokens.length := by simp [shape]
    have shorter := front.length_lt
    obtain ⟨tree, heads, taken, sameName, sameParameters⟩ := functionHeader_sound isFun front
    obtain ⟨closing, ⟨sentences, derives, bodyTaken, rfl⟩, closed⟩ := block_sound middle inner
    refine ⟨.function tree sentences closing, .function heads derives closed, ?_, ?_,
      by simp [Sentence.takesElse]⟩
    · simp [Sentence.tokens, shape, taken, bodyTaken]
    · simp [Sentence.stmt, sameName, sameParameters]
  · obtain ⟨tree, derives, taken, rfl⟩ := variableRule_sound isVar inner
    exact ⟨.declare tree, .declare derives, shape.trans taken, rfl, by simp [Sentence.takesElse]⟩
  · obtain ⟨sentence, derives, taken, same, last⟩ := statement_sound tokens inner
    exact ⟨sentence, .statement derives, taken, same, last⟩
termination_by tokens.length * 4 + 1
decreasing_by all_goals omega

theorem statement_sound (tokens : List Token) {statement : Stmt} {rest : List Token}
    (reads : (Grammar.statement final tokens).Reads statement rest) :
    SpellsSentence .statement tokens statement rest := by
  match tokens with
  | [] => exact absurd reads.length_lt (Nat.not_lt_zero _)
  | first :: after =>
    cases plain : opensStatement first.kind with
    | false => exact plain_sound plain reads
    | true =>
      rcases opensStatement_cases plain with isFor | isIf | isReturn | isWhile | isBrace
      · obtain ⟨header, middle, body, front, inner, rfl⟩ := (reads_for isFor).1 reads
        have shorter := front.length_lt
        obtain ⟨tree, heads, taken, rfl⟩ := forHeader_sound isFor front
        obtain ⟨sentence, derives, bodyTaken, rfl, last⟩ := statement_sound middle inner
        refine ⟨.forLoop tree sentence, .forLoop heads derives, ?_, rfl, last⟩
        simp [Sentence.tokens, taken, bodyTaken]
      · obtain ⟨value, middle, consequent, behind, front, inner, choice⟩ := (reads_if isIf).1 reads
        have shorter := front.length_lt
        have smaller := inner.length_lt
        obtain ⟨tree, heads, taken, rfl⟩ := condition_sound isIf front
        obtain ⟨sentence, derives, bodyTaken, rfl, nearest⟩ := statement_sound middle inner
        rcases choice with ⟨stop, rfl, rfl⟩ | ⟨word, more, alternative, rfl, isElse, further, rfl⟩
        · refine ⟨.branch tree sentence, .branch heads derives, ?_, rfl, fun _ => stop⟩
          simp [Sentence.tokens, taken, bodyTaken]
        · have less : more.length < middle.length := by
            simp only [List.length_cons] at smaller
            omega
          obtain ⟨other, otherDerives, otherTaken, rfl, last⟩ := statement_sound more further
          have closed : sentence.takesElse = false := by simpa [isElse] using nearest
          refine ⟨.choice tree sentence word other, .choice heads derives closed isElse otherDerives,
            ?_, rfl, last⟩
          simp [Sentence.tokens, taken, bodyTaken, otherTaken]
      · obtain ⟨value, semicolon, front, closed, rfl⟩ :=
          reads_returnRule.1 ((reads_return isReturn).1 reads)
        obtain ⟨phrase, derives, taken, rfl⟩ := expressionBefore_sound front
        refine ⟨.ret first phrase semicolon, .ret isReturn derives closed, ?_, rfl,
          by simp [Sentence.takesElse]⟩
        simp [Sentence.tokens, taken]
      · obtain ⟨value, middle, body, front, inner, rfl⟩ := (reads_while isWhile).1 reads
        have shorter := front.length_lt
        obtain ⟨tree, heads, taken, rfl⟩ := condition_sound isWhile front
        obtain ⟨sentence, derives, bodyTaken, rfl, last⟩ := statement_sound middle inner
        refine ⟨.loop tree sentence, .loop heads derives, ?_, rfl, last⟩
        simp [Sentence.tokens, taken, bodyTaken]
      · obtain ⟨body, inner, rfl⟩ := (reads_braced isBrace).1 reads
        obtain ⟨closing, ⟨sentences, derives, bodyTaken, rfl⟩, closed⟩ := block_sound after inner
        refine ⟨.block first sentences closing, .block isBrace derives closed, ?_, rfl,
          by simp [Sentence.takesElse]⟩
        simp [Sentence.tokens, bodyTaken]
termination_by tokens.length * 4
decreasing_by all_goals simp only [List.length_cons]; omega

theorem block_sound (tokens : List Token) {statements : List Stmt} {rest : List Token}
    (reads : (block final tokens).Reads statements rest) :
    ∃ closing, SpellsBody tokens statements (closing :: rest) ∧ closing.kind = .rightBrace := by
  obtain ⟨closing, inner, closed⟩ := reads_block.1 reads
  exact ⟨closing, declarations_sound true tokens inner, closed⟩
termination_by tokens.length * 4 + 3
decreasing_by omega

theorem declarations_sound (inBlock : Bool) (tokens : List Token) {statements : List Stmt}
    {rest : List Token} (reads : ReadsAll final inBlock tokens statements rest) :
    SpellsBody tokens statements rest := by
  match tokens with
  | [] =>
    obtain ⟨rfl, rfl⟩ := readsAll_nil.1 reads
    exact ⟨[], by simp, rfl, rfl⟩
  | first :: after =>
    cases closes : inBlock && first.kind == .rightBrace with
    | true =>
      obtain ⟨rfl, closed⟩ : inBlock = true ∧ first.kind = .rightBrace := by simpa using closes
      obtain ⟨rfl, rfl⟩ := (readsAll_closed closed).1 reads
      exact ⟨[], by simp, rfl, rfl⟩
    | false =>
      obtain ⟨statement, middle, others, front, inner, rfl⟩ := (readsAll_cons closes).1 reads
      have shorter := front.length_lt
      obtain ⟨sentence, derives, taken, rfl, _⟩ := declaration_sound (first :: after) front
      obtain ⟨sentences, allDerive, bodyTaken, rfl⟩ := declarations_sound inBlock middle inner
      refine ⟨sentence :: sentences, by simpa using ⟨derives, allDerive⟩, ?_, rfl⟩
      simp [Sentence.allTokens, taken, bodyTaken]
termination_by tokens.length * 4 + 2
decreasing_by
  · omega
  · simp only [List.length_cons] at *; omega
end

end TinyScript.Grammar
