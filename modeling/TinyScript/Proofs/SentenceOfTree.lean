import TinyScript.Proofs.PhraseOfTree

/-! Tokens that agree with those of a canonical statement, places aside, have a derivation that
spells the statement. -/
namespace TinyScript

open Phrase

theorem Expr.opensWithPrint_joined (left right : Expr) (operator : Token) :
    (Expr.joined left operator right).opensWithPrint = left.opensWithPrint := by
  unfold Expr.joined
  split <;> rw [Expr.opensWithPrint]

theorem Expr.opensWithPrint_call {callee : Expr} (noName : ∀ name, callee ≠ .var name)
    (paren : Token) (arguments : List Expr) :
    (Expr.call callee paren arguments).opensWithPrint = callee.opensWithPrint := by
  rw [Expr.opensWithPrint]
  exact noName

/-- What is called is a single token, or made of two tokens at least. -/
theorem Phrase.Derives.callee_cases {callee : Phrase} (derives : Derives IsName .call callee) :
    (∃ token, callee = .atom token) ∨
      2 ≤ callee.tokens.length ∧ ∀ name, callee.expr ≠ .var name := by
  cases derives with
  | call => exact .inr ⟨by simp [Phrase.tokens]; omega, by simp [expr]⟩
  | uncalled inner =>
    cases inner with
    | @counted target sign _ counts =>
      obtain ⟨name, rfl, _, same⟩ := expr_counted sign counts
      exact .inr ⟨by simp [Phrase.tokens], by simp [same]⟩
    | uncounted inner =>
      cases inner with
      | atom => exact .inl ⟨_, rfl⟩
      | group => exact .inr ⟨by simp [Phrase.tokens], by simp [expr]⟩

theorem startsPrint_eq {token : Token} {rest : List Token} :
    startsPrint token rest = (token.kind == .identifier && token.lexeme == "print" &&
      !starts (· == .leftParen) rest) := by
  rw [startsPrint, startsWith_eq_starts]

/-- An expression looks like a print statement exactly when its tree starts with `print`. -/
theorem Phrase.Derives.opensPrint_tokens {tier : Tier} {phrase : Phrase}
    (derives : Derives IsName tier phrase) (rest : List Token)
    (stop : starts (· == .leftParen) rest = false) :
    opensPrint true (phrase.tokens ++ rest) = phrase.expr.opensWithPrint := by
  induction derives generalizing rest with
  | chained _ ih | operand _ ih | unsigned _ ih | uncalled _ ih | uncounted _ ih => exact ih rest stop
  | @assigned name equals value isName isAssign =>
    simp [Phrase.tokens, opensPrint, startsPrint_eq, expr, Expr.opensWithPrint, isName, isAssign]
  | @joined level left right operator joins leftward rightward ihLeft =>
    have noParen : operator.kind ≠ .leftParen := by
      intro kind
      cases level <;> simp [kind, Level.joins] at joins
    have front := ihLeft (operator :: (right.tokens ++ rest)) (by simp [noParen])
    rw [expr, Expr.opensWithPrint_joined, ← front]
    simp [Phrase.tokens]
  | @signed operator right sign =>
    have noName : operator.kind ≠ .identifier := by
      intro kind
      simp [kind, isSign] at sign
    simp [Phrase.tokens, opensPrint, startsPrint_eq, expr, Expr.opensWithPrint, noName]
  | @call callee opening closing arguments commas called isOpening _ _ _ _ _ ihCallee =>
    rcases called.callee_cases with ⟨token, rfl⟩ | ⟨long, noName⟩
    · have literal :
          (Expr.call (Expr.ofAtom token) closing (exprs arguments)).opensWithPrint = false := by
        unfold Expr.ofAtom
        split <;> rfl
      simp [Phrase.tokens, opensPrint, startsPrint_eq, isOpening, expr, literal]
    · have front := ihCallee [] rfl
      rw [List.append_nil] at front
      rw [expr, Expr.opensWithPrint_call noName, ← front]
      simp only [Phrase.tokens, List.append_assoc]
      exact opensPrint_append long _
  | @counted target sign _ counts isCount =>
    obtain ⟨name, rfl, isName, same⟩ := expr_counted sign counts
    have noParen : sign.kind ≠ .leftParen := by
      intro kind
      simp [kind, isIncrement] at isCount
    simp [Phrase.tokens, opensPrint, startsPrint_eq, same, Expr.opensWithPrint, isName, noParen]
  | @atom token atomic =>
    simp only [Phrase.tokens, List.singleton_append, opensPrint, startsPrint_eq, expr, stop]
    unfold Expr.ofAtom
    split <;> simp_all [Expr.opensWithPrint, isAtom]
  | @group opening closing inner isOpening =>
    simp [Phrase.tokens, opensPrint, startsPrint_eq, expr, Expr.opensWithPrint, isOpening]

theorem Expr.bare_ne_var {value : Expr} (noName : ∀ name, value ≠ .var name) (name : Token) :
    value.bare ≠ .var name := by
  cases value with
  | var other => exact absurd rfl (noName other)
  | _ => simp [Expr.bare]

theorem Expr.opensWithPrint_bare (value : Expr) :
    value.bare.opensWithPrint = value.opensWithPrint := by
  match value with
  | .literal _ | .grouping _ | .unary .. | .var _ | .assign .. | .increment .. => rfl
  | .binary left _ _ => exact left.opensWithPrint_bare
  | .logical left _ _ => exact left.opensWithPrint_bare
  | .call callee paren arguments =>
    by_cases named : ∃ name, callee = .var name
    · obtain ⟨name, rfl⟩ := named
      rfl
    · have noName : ∀ name, callee ≠ .var name := fun name same => named ⟨name, same⟩
      rw [Expr.bare, Expr.opensWithPrint_call (Expr.bare_ne_var noName),
        Expr.opensWithPrint_call noName]
      exact callee.opensWithPrint_bare

mutual
theorem Stmt.silent_bare (statement : Stmt) : statement.bare.silent = statement.silent := by
  match statement with
  | .expression value => rw [Stmt.bare, Stmt.silent, Stmt.silent, value.opensWithPrint_bare]
  | .declare .. | .ret .. => rfl
  | .block statements => exact Stmt.allSilent_bares statements
  | .branch _ consequent (some alternative) =>
    rw [Stmt.bare, Stmt.silent, Stmt.silent, consequent.silent_bare, alternative.silent_bare]
  | .branch _ consequent none => exact consequent.silent_bare
  | .loop _ body => exact body.silent_bare
  | .function _ _ body => exact Stmt.allSilent_bares body

theorem Stmt.allSilent_bares (statements : List Stmt) :
    Stmt.allSilent (Stmt.bares statements) = Stmt.allSilent statements := by
  match statements with
  | [] => rfl
  | first :: others =>
    rw [Stmt.bares, Stmt.allSilent, Stmt.allSilent, first.silent_bare, Stmt.allSilent_bares others]
end

/-- Some derivation at the place takes the tokens and spells the statement, places aside. -/
def DerivedSentence (printing : Bool) (slot : Slot) (statement : Stmt) (tokens : List Token) :
    Prop :=
  ∃ sentence : Sentence, sentence.Derives IsName printing slot ∧ sentence.tokens = tokens ∧
    sentence.stmt.bare = statement.bare ∧ sentence.takesElse = statement.takesElse

variable {printing : Bool} {tokens : List Token}

theorem body_derived {statements : List Stmt}
    (each : ∀ statement ∈ statements, (printing = true → statement.silent = true) →
      ∀ tokens, Agrees tokens statement.printed →
        DerivedSentence printing .declaration statement tokens)
    (silent : printing = true → Stmt.allSilent statements = true)
    (agrees : Agrees tokens (Stmt.printeds statements)) :
    ∃ body, (∀ sentence ∈ body, sentence.Derives IsName printing .declaration) ∧
      Sentence.allTokens body = tokens ∧
      Stmt.bares (Sentence.stmts body) = Stmt.bares statements := by
  induction statements generalizing tokens with
  | nil =>
    obtain rfl := agrees.of_nil
    exact ⟨[], by simp, rfl, rfl⟩
  | cons first others ih =>
    have quiet : printing = true → first.silent = true ∧ Stmt.allSilent others = true := by
      intro prints
      simpa [Stmt.allSilent] using silent prints
    obtain ⟨before, behind, rfl, firstAgrees, othersAgree⟩ := agrees.of_append
    obtain ⟨sentence, derives, taken, same, _⟩ :=
      each first (by simp) (fun prints => (quiet prints).1) before firstAgrees
    obtain ⟨body, allDerive, bodyTaken, bodySame⟩ :=
      ih (fun statement member => each statement (by simp [member]))
        (fun prints => (quiet prints).2) othersAgree
    refine ⟨sentence :: body, by simpa using ⟨derives, allDerive⟩, ?_, ?_⟩
    · rw [Sentence.allTokens, taken, bodyTaken]
    · rw [Sentence.stmts, Stmt.bares, same, bodySame]
      rfl

theorem condition_derived {word : Keyword} {condition : Expr}
    (canonical : condition.Canonical .assignment)
    (agrees : Agrees tokens (headed word condition.printed)) :
    ∃ tree : ConditionTree, tree.Derives IsName word ∧ tree.tokens = tokens ∧
      tree.value.expr.bare = condition.bare := by
  rw [headed, List.cons_append] at agrees
  obtain ⟨keyword, more, rfl, isWord, moreAgrees⟩ := agrees.of_cons
  obtain ⟨opening, behind, rfl, isOpening, behindAgrees⟩ := moreAgrees.of_cons
  obtain ⟨inside, last, rfl, insideAgrees, lastAgrees⟩ := behindAgrees.of_append
  obtain ⟨closing, rfl, isClosing⟩ := lastAgrees.of_singleton
  obtain ⟨phrase, derives, rfl, same⟩ := canonical.derived inside insideAgrees
  exact ⟨⟨keyword, opening, phrase, closing⟩, ⟨Token.kind_eq_of_bare isWord,
    Token.kind_eq_of_bare isOpening, derives, Token.kind_eq_of_bare isClosing⟩, rfl, same⟩

theorem parameters_derived {parameters : List Token}
    (areNames : ∀ parameter ∈ parameters, parameter.Named)
    (agrees : Agrees tokens (listed (parameters.map fun parameter => [parameter.bare]))) :
    ∃ names commas : List Token, (∀ name ∈ names, name.kind = .identifier) ∧
      commas.length = names.length - 1 ∧ (∀ comma ∈ commas, comma.kind = .comma) ∧
      separated (names.map ([·])) commas = tokens ∧
      names.map Token.bare = parameters.map Token.bare := by
  induction parameters generalizing tokens with
  | nil =>
    obtain rfl := agrees.of_nil
    exact ⟨[], [], by simp, rfl, by simp, rfl, rfl⟩
  | cons first others ih =>
    have named := areNames first (by simp)
    cases others with
    | nil =>
      obtain ⟨name, rfl, same⟩ := agrees.of_singleton
      exact ⟨[name], [], by simpa using (Token.kind_eq_of_bare same).trans named.kind, rfl, by simp,
        rfl, by simp [same]⟩
    | cons second others =>
      obtain ⟨name, more, rfl, same, moreAgrees⟩ := agrees.of_cons
      obtain ⟨comma, behind, rfl, isComma, tailAgrees⟩ := moreAgrees.of_cons
      obtain ⟨names, commas, allNamed, between, areCommas, taken, restSame⟩ :=
        ih (fun parameter member => areNames parameter (by simp [member])) tailAgrees
      obtain ⟨next, later, rfl⟩ : ∃ next later, names = next :: later := by
        cases names with
        | nil => simp at restSame
        | cons next later => exact ⟨next, later, rfl⟩
      refine ⟨name :: next :: later, comma :: commas, ?_, by simpa using between, ?_, ?_, ?_⟩
      · simpa using ⟨(Token.kind_eq_of_bare same).trans named.kind, by simpa using allNamed⟩
      · simpa using ⟨Token.kind_eq_of_bare isComma, areCommas⟩
      · rw [← taken]
        rfl
      · rw [List.map_cons, restSame, same]
        rfl

theorem variable_derived {name : Token} {initializer : Option Expr} (named : name.Named)
    (initial : ∀ value, initializer = some value → value.Canonical .assignment)
    (agrees : Agrees tokens (Stmt.declare name initializer).printed) :
    ∃ tree : VariableTree, tree.Derives IsName ∧ tree.tokens = tokens ∧
      tree.stmt.bare = (Stmt.declare name initializer).bare := by
  cases initializer with
  | none =>
    obtain ⟨keyword, more, rfl, isVar, moreAgrees⟩ := agrees.of_cons
    obtain ⟨target, behind, rfl, sameName, behindAgrees⟩ := moreAgrees.of_cons
    obtain ⟨semicolon, rfl, isSemicolon⟩ := behindAgrees.of_singleton
    refine ⟨⟨keyword, target, none, semicolon⟩, ⟨Token.kind_eq_of_bare isVar,
      (Token.kind_eq_of_bare sameName).trans named.kind, by simp,
      Token.kind_eq_of_bare isSemicolon⟩, rfl, ?_⟩
    simp [VariableTree.stmt, Stmt.bare, sameName]
  | some value =>
    rw [Stmt.printed, List.cons_append, List.cons_append, List.cons_append] at agrees
    obtain ⟨keyword, more, rfl, isVar, moreAgrees⟩ := agrees.of_cons
    obtain ⟨target, behind, rfl, sameName, behindAgrees⟩ := moreAgrees.of_cons
    obtain ⟨equals, after, rfl, isAssign, afterAgrees⟩ := behindAgrees.of_cons
    obtain ⟨inside, last, rfl, insideAgrees, lastAgrees⟩ := afterAgrees.of_append
    obtain ⟨semicolon, rfl, isSemicolon⟩ := lastAgrees.of_singleton
    obtain ⟨phrase, derives, rfl, same⟩ := (initial value rfl).derived inside insideAgrees
    refine ⟨⟨keyword, target, some (equals, phrase), semicolon⟩, ⟨Token.kind_eq_of_bare isVar,
      (Token.kind_eq_of_bare sameName).trans named.kind, ?_,
      Token.kind_eq_of_bare isSemicolon⟩, rfl, ?_⟩
    · rintro _ _ ⟨⟩
      exact ⟨Token.kind_eq_of_bare isAssign, derives⟩
    · simp [VariableTree.stmt, Stmt.bare, sameName, same]

/-- What stands around the body of a function. -/
theorem function_derived {name : Token} {parameters : List Token} {body : List Stmt}
    (named : name.Named) (names : ∀ parameter ∈ parameters, parameter.Named)
    (short : parameters.length < listLimit)
    (agrees : Agrees tokens (Stmt.function name parameters body).printed) :
    ∃ (tree : FunctionTree) (inside : List Token) (ending : Token), tree.Derives ∧
      ending.kind = .rightBrace ∧ tree.tokens ++ inside ++ [ending] = tokens ∧
      Agrees inside (Stmt.printeds body) ∧ tree.name.bare = name.bare ∧
      tree.parameters.map Token.bare = parameters.map Token.bare := by
  rw [Stmt.printed, List.cons_append, List.cons_append, List.cons_append] at agrees
  obtain ⟨keyword, more, rfl, isFun, moreAgrees⟩ := agrees.of_cons
  obtain ⟨target, behind, rfl, sameName, behindAgrees⟩ := moreAgrees.of_cons
  obtain ⟨opening, after, rfl, isOpening, afterAgrees⟩ := behindAgrees.of_cons
  obtain ⟨list, further, rfl, listAgrees, furtherAgrees⟩ := afterAgrees.of_append
  obtain ⟨closing, rest, rfl, isClosing, restAgrees⟩ := furtherAgrees.of_cons
  rw [braced, List.cons_append] at restAgrees
  obtain ⟨brace, bodyTokens, rfl, isBrace, bodyAgrees⟩ := restAgrees.of_cons
  obtain ⟨inside, last, rfl, insideAgrees, lastAgrees⟩ := bodyAgrees.of_append
  obtain ⟨ending, rfl, isEnding⟩ := lastAgrees.of_singleton
  obtain ⟨identifiers, commas, areNames, between, areCommas, rfl, sameNames⟩ :=
    parameters_derived names listAgrees
  have sameLength : identifiers.length = parameters.length := by
    simpa using congrArg List.length sameNames
  refine ⟨⟨keyword, target, opening, identifiers, commas, closing, brace⟩, inside, ending,
    ⟨Token.kind_eq_of_bare isFun, (Token.kind_eq_of_bare sameName).trans named.kind,
      Token.kind_eq_of_bare isOpening, areNames, between, areCommas, sameLength ▸ short,
      Token.kind_eq_of_bare isClosing, Token.kind_eq_of_bare isBrace⟩,
    Token.kind_eq_of_bare isEnding, ?_, insideAgrees, sameName, sameNames⟩
  simp [FunctionTree.tokens]

/-- An expression that may be missing, in front of a semicolon. -/
theorem returned_derived {value : Option Expr}
    (canonical : ∀ present, value = some present → present.Canonical .assignment)
    (agrees : Agrees tokens ((value.elim [] Expr.printed) ++ [.fixed .semicolon])) :
    ∃ (phrase : Option Phrase) (semicolon : Token),
      (∀ present, phrase = some present → Derives IsName .assignment present) ∧
      semicolon.kind = .semicolon ∧ optionalTokens phrase ++ [semicolon] = tokens ∧
      (phrase.map Phrase.expr).map Expr.bare = value.map Expr.bare := by
  obtain ⟨inside, last, rfl, insideAgrees, lastAgrees⟩ := agrees.of_append
  obtain ⟨semicolon, rfl, isSemicolon⟩ := lastAgrees.of_singleton
  have closed := Token.kind_eq_of_bare isSemicolon
  cases value with
  | none =>
    obtain rfl := insideAgrees.of_nil
    exact ⟨none, semicolon, by simp, closed, rfl, rfl⟩
  | some present =>
    obtain ⟨phrase, derives, rfl, same⟩ := (canonical present rfl).derived inside insideAgrees
    exact ⟨some phrase, semicolon, by simpa using derives, closed, rfl, by simp [same]⟩

theorem Stmt.Canonical.derived {slot : Slot} {statement : Stmt}
    (canonical : statement.Canonical slot) :
    (printing = true → statement.silent = true) →
      ∀ tokens, Agrees tokens statement.printed →
        DerivedSentence printing slot statement tokens := by
  induction canonical with
  | statement _ ih =>
    intro silent tokens agrees
    obtain ⟨sentence, derives, shape⟩ := ih silent tokens agrees
    exact ⟨sentence, .statement derives, shape⟩
  | @expression value inner =>
    intro silent tokens agrees
    obtain ⟨inside, last, rfl, insideAgrees, lastAgrees⟩ := agrees.of_append
    obtain ⟨semicolon, rfl, isSemicolon⟩ := lastAgrees.of_singleton
    have closed := Token.kind_eq_of_bare isSemicolon
    obtain ⟨phrase, derives, rfl, same⟩ := inner.derived inside insideAgrees
    have quiet : opensPrint printing (phrase.tokens ++ [semicolon]) = false := by
      cases printing with
      | false => exact opensPrint_false _
      | true =>
        rw [derives.opensPrint_tokens [semicolon] (by simp [closed]), ← Expr.opensWithPrint_bare,
          same, Expr.opensWithPrint_bare]
        simpa [Stmt.silent] using silent rfl
    refine ⟨.expression phrase semicolon, .expression derives closed quiet, rfl, ?_, rfl⟩
    simp [Sentence.stmt, Stmt.bare, same]
  | @declare name initializer named initial =>
    intro _ tokens agrees
    obtain ⟨tree, derives, shape, same⟩ := variable_derived named initial agrees
    exact ⟨.declare tree, .declare derives, shape, same, rfl⟩
  | @block statements _ ih =>
    intro silent tokens agrees
    rw [Stmt.printed, braced, List.cons_append] at agrees
    obtain ⟨opening, more, rfl, isOpening, moreAgrees⟩ := agrees.of_cons
    obtain ⟨inside, last, rfl, insideAgrees, lastAgrees⟩ := moreAgrees.of_append
    obtain ⟨closing, rfl, isClosing⟩ := lastAgrees.of_singleton
    obtain ⟨body, derives, rfl, same⟩ := body_derived ih silent insideAgrees
    refine ⟨.block opening body closing, .block (Token.kind_eq_of_bare isOpening) derives
      (Token.kind_eq_of_bare isClosing), rfl, ?_, rfl⟩
    simp [Sentence.stmt, Stmt.bare, same]
  | @branch condition consequent tested _ ih =>
    intro silent tokens agrees
    obtain ⟨before, behind, rfl, headAgrees, bodyAgrees⟩ := agrees.of_append
    obtain ⟨tree, heads, rfl, sameCondition⟩ := condition_derived tested headAgrees
    obtain ⟨sentence, derives, rfl, same, _⟩ := ih silent behind bodyAgrees
    refine ⟨.branch tree sentence, .branch heads derives, rfl, ?_, rfl⟩
    simp [Sentence.stmt, Stmt.bare, sameCondition, same]
  | @choice condition consequent alternative tested _ nearest _ ih ihLast =>
    intro silent tokens agrees
    have quiet : printing = true → consequent.silent = true ∧ alternative.silent = true := by
      intro prints
      simpa [Stmt.silent] using silent prints
    rw [Stmt.printed, List.append_assoc] at agrees
    obtain ⟨before, more, rfl, headAgrees, moreAgrees⟩ := agrees.of_append
    obtain ⟨middle, behind, rfl, bodyAgrees, behindAgrees⟩ := moreAgrees.of_append
    obtain ⟨otherwise, after, rfl, isElse, afterAgrees⟩ := behindAgrees.of_cons
    obtain ⟨tree, heads, rfl, sameCondition⟩ := condition_derived tested headAgrees
    obtain ⟨first, derives, rfl, same, sameElse⟩ :=
      ih (fun prints => (quiet prints).1) middle bodyAgrees
    obtain ⟨second, lastDerives, rfl, lastSame, lastElse⟩ :=
      ihLast (fun prints => (quiet prints).2) after afterAgrees
    refine ⟨.choice tree first otherwise second, .choice heads derives (sameElse.trans nearest)
      (Token.kind_eq_of_bare isElse) lastDerives, ?_, ?_, ?_⟩
    · simp [Sentence.tokens]
    · simp [Sentence.stmt, Stmt.bare, sameCondition, same, lastSame]
    · simpa [Sentence.takesElse, Stmt.takesElse] using lastElse
  | @loop condition body tested _ ih =>
    intro silent tokens agrees
    obtain ⟨before, behind, rfl, headAgrees, bodyAgrees⟩ := agrees.of_append
    obtain ⟨tree, heads, rfl, sameCondition⟩ := condition_derived tested headAgrees
    obtain ⟨sentence, derives, rfl, same, sameElse⟩ := ih silent behind bodyAgrees
    refine ⟨.loop tree sentence, .loop heads derives, rfl, ?_, ?_⟩
    · simp [Sentence.stmt, Stmt.bare, sameCondition, same]
    · simpa [Sentence.takesElse, Stmt.takesElse] using sameElse
  | @function name parameters body named names short _ ih =>
    intro silent tokens agrees
    obtain ⟨tree, inside, ending, heads, closed, rfl, insideAgrees, sameName, sameNames⟩ :=
      function_derived named names short agrees
    obtain ⟨sentences, derives, rfl, same⟩ := body_derived ih silent insideAgrees
    refine ⟨.function tree sentences ending, .function heads derives closed, rfl, ?_, rfl⟩
    simp [Sentence.stmt, Stmt.bare, sameName, sameNames, same]
  | @ret keyword value isReturn spelled returned =>
    intro _ tokens agrees
    have whole : Agrees tokens
        (keyword.bare :: (value.elim [] Expr.printed ++ [.fixed .semicolon])) := by
      cases value <;> exact agrees
    obtain ⟨word, more, rfl, sameWord, moreAgrees⟩ := whole.of_cons
    obtain ⟨phrase, semicolon, derives, closed, rfl, same⟩ := returned_derived returned moreAgrees
    refine ⟨.ret word phrase semicolon, .ret ((Token.kind_eq_of_bare sameWord).trans isReturn)
      derives closed, rfl, ?_, rfl⟩
    rw [Sentence.stmt, Stmt.bare, Stmt.bare, sameWord, same]

end TinyScript
