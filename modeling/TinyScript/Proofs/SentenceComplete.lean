import TinyScript.Proofs.PhraseComplete
import TinyScript.Proofs.SentenceSound

/-! Every derivation of a statement is read without an error, unless an `else` follows that belongs
to an `if` inside it. -/
namespace TinyScript.Grammar

open Phrase

variable {final : Token}

/-- An expression is read in front of a semicolon, a comma or a closing parenthesis. -/
theorem expression_reads {phrase : Phrase} (derives : Derives IsName .assignment phrase)
    {stop : Token} (rest : List Token)
    (stops : stop.kind = .semicolon ∨ stop.kind = .comma ∨ stop.kind = .rightParen) :
    (expression final (phrase.tokens ++ stop :: rest)).Reads phrase.expr (stop :: rest) := by
  refine (stands_of_derives derives).reads (stop :: rest) ?_
  rcases stops with kind | kind | kind
  all_goals
    rw [starts_cons, kind]
    rfl

/-- No expression starts with one of the kinds that close it. -/
theorem not_starts_of_derives {phrase : Phrase} (derives : Derives IsName .assignment phrase)
    {kind : TokenKind} (rest : List Token) (closes : Tier.assignment.opensWith kind = false) :
    starts (· == kind) (phrase.tokens ++ rest) = false := by
  obtain ⟨first, others, shape, opens⟩ := derives.opens
  rw [shape, List.cons_append, starts_cons, beq_eq_false_iff_ne]
  rintro rfl
  simp [opens] at closes

/-- No expression starts like a statement of another rule. -/
theorem not_opensStatement_of_opens {kind : TokenKind}
    (opens : Tier.assignment.opensWith kind = true) : opensStatement kind = false := by
  rw [Bool.eq_false_iff]
  intro other
  rcases opensStatement_cases other with rfl | rfl | rfl | rfl | rfl
  all_goals simp [Tier.opensWith, isAtom, isSign] at opens

theorem expressionBefore_reads {phrase : Option Phrase}
    (derives : ∀ present, phrase = some present → Derives IsName .assignment present)
    {stop : Token} (rest : List Token) (stops : stop.kind = .semicolon ∨ stop.kind = .rightParen) :
    (expressionBefore final stop.kind (optionalTokens phrase ++ stop :: rest)).Reads
      (phrase.map expr) (stop :: rest) := by
  cases phrase with
  | none => exact reads_expressionBefore.2 (.inl ⟨by simp [optionalTokens], rfl, rfl⟩)
  | some present =>
    have inner := derives present rfl
    refine reads_expressionBefore.2 (.inr ⟨not_starts_of_derives inner _ ?_, present.expr, rfl,
      expression_reads inner rest ?_⟩)
    · rcases stops with kind | kind <;> rw [kind] <;> rfl
    · exact stops.imp_right .inr

theorem variableRule_reads {tree : VariableTree} (derives : tree.Derives IsName)
    (rest : List Token) :
    ∃ more, tree.tokens ++ rest = tree.keyword :: more ∧
      (variableRule final more).Reads tree.stmt rest := by
  obtain ⟨keyword, name, initial, semicolon⟩ := tree
  obtain ⟨_, isName, initialDerives, closed⟩ := derives
  cases initial with
  | none =>
    refine ⟨name :: semicolon :: rest, rfl, reads_variableRule.2 ⟨name, semicolon :: rest, none,
      semicolon, rfl, isName, reads_initializer.2 (.inl ⟨?_, rfl, rfl⟩), closed, rfl⟩⟩
    rw [starts_cons, closed]
    rfl
  | some entry =>
    obtain ⟨equals, value⟩ := entry
    obtain ⟨isAssign, inner⟩ := initialDerives equals value rfl
    refine ⟨name :: equals :: (value.tokens ++ semicolon :: rest), by simp [VariableTree.tokens],
      reads_variableRule.2 ⟨name, _, some value.expr, semicolon, rfl, isName, ?_, closed, rfl⟩⟩
    exact reads_initializer.2 (.inr ⟨equals, _, value.expr, rfl, isAssign, rfl,
      expression_reads inner rest (.inl closed)⟩)

theorem condition_reads {word : Keyword} {tree : ConditionTree} (derives : tree.Derives IsName word)
    {after closing : String} (rest : List Token) :
    ∃ more, tree.tokens ++ rest = tree.keyword :: more ∧
      (condition final after closing more).Reads tree.value.expr rest := by
  refine ⟨tree.opening :: (tree.value.tokens ++ tree.closing :: rest), by simp [ConditionTree.tokens],
    reads_condition.2 ⟨tree.opening, _, tree.closing, rfl, derives.opened, ?_, derives.closed⟩⟩
  exact expression_reads derives.condition rest (.inr (.inr derives.closed))

theorem forInitializer_reads {start : ForStart} (derives : start.Derives IsName)
    (rest : List Token) :
    (forInitializer final (start.tokens ++ rest)).Reads start.stmt? rest := by
  cases derives with
  | absent closed => exact reads_forInitializer.2 (.inl ⟨_, rfl, closed, rfl⟩)
  | declare declares =>
    obtain ⟨more, shape, reads⟩ := variableRule_reads declares rest
    exact reads_forInitializer.2 (.inr (.inl ⟨_, more, _, shape, declares.isVar, reads, rfl⟩))
  | @expression value semicolon evaluates closed =>
    have shape : (ForStart.expression value semicolon).tokens ++ rest =
        value.tokens ++ semicolon :: rest := by simp [ForStart.tokens]
    rw [shape]
    exact reads_forInitializer.2 (.inr (.inr ⟨not_starts_of_derives evaluates _ rfl,
      not_starts_of_derives evaluates _ rfl, _, reads_expressionRule.2 ⟨_, semicolon,
        expression_reads evaluates rest (.inl closed), closed, rfl⟩, rfl⟩))

theorem forHeader_reads {tree : ForTree} (derives : tree.Derives IsName) (rest : List Token) :
    ∃ more, tree.tokens ++ rest = tree.keyword :: more ∧
      (forHeader final more).Reads tree.header rest := by
  have third : (expressionBefore final tree.closing.kind (optionalTokens tree.increment ++
      tree.closing :: rest)).Reads (tree.increment.map expr) (tree.closing :: rest) :=
    expressionBefore_reads derives.increment rest (.inr derives.closed)
  have second : (expressionBefore final tree.semicolon.kind (optionalTokens tree.condition ++
      tree.semicolon :: (optionalTokens tree.increment ++ tree.closing :: rest))).Reads
      (tree.condition.map expr)
      (tree.semicolon :: (optionalTokens tree.increment ++ tree.closing :: rest)) :=
    expressionBefore_reads derives.condition _ (.inl derives.divided)
  rw [derives.closed] at third
  rw [derives.divided] at second
  refine ⟨tree.opening :: (tree.start.tokens ++ (optionalTokens tree.condition ++ tree.semicolon ::
    (optionalTokens tree.increment ++ tree.closing :: rest))), by simp [ForTree.tokens],
    reads_forHeader.2 ⟨tree.opening, _, _, tree.semicolon, _, tree.closing, rfl, derives.opened,
      forInitializer_reads derives.begins _, second, derives.divided, third, derives.closed⟩⟩

theorem parameterList_reads (names commas : List Token) (closing : Token) (rest : List Token)
    (closed : closing.kind = .rightParen) (nonempty : names ≠ [])
    (areNames : ∀ name ∈ names, name.kind = .identifier)
    (between : commas.length = names.length - 1) (areCommas : ∀ comma ∈ commas, comma.kind = .comma) :
    (parameterList final (separated (names.map ([·])) commas ++ closing :: rest)).Reads names
      (closing :: rest) := by
  induction names generalizing commas with
  | nil => exact absurd rfl nonempty
  | cons first others ih =>
    have isName : first.kind = .identifier := areNames first (by simp)
    cases others with
    | nil =>
      exact reads_parameterList.2 ⟨first, closing :: rest, rfl, isName,
        .inl ⟨by simp [closed], rfl, rfl⟩⟩
    | cons second others =>
      obtain ⟨comma, commas, rfl⟩ : ∃ comma others, commas = comma :: others := by
        cases commas with
        | nil => simp at between
        | cons comma others => exact ⟨comma, others, rfl⟩
      have inner := ih commas (by simp) (fun name member => areNames name (by simp [member]))
        (by simpa using between) (fun other member => areCommas other (by simp [member]))
      exact reads_parameterList.2 ⟨first, _, rfl, isName, .inr ⟨comma, _, second :: others, rfl,
        areCommas comma (by simp), inner, rfl⟩⟩

theorem functionHeader_reads {tree : FunctionTree} (derives : tree.Derives) (rest : List Token) :
    ∃ more header, tree.tokens ++ rest = tree.keyword :: more ∧
      (functionHeader final more).Reads header rest ∧ header.name = tree.name ∧
      header.parameters = tree.parameters := by
  refine ⟨tree.name :: tree.opening :: (separated (tree.parameters.map ([·])) tree.commas ++
    tree.closing :: tree.brace :: rest), ⟨tree.name, tree.parameters⟩, by simp [FunctionTree.tokens],
    reads_functionHeader.2 ⟨tree.opening, _, tree.closing, tree.brace, rfl, derives.isName,
      derives.opened, ?_, derives.closed, derives.braced⟩, rfl, rfl⟩
  have areNames := derives.names
  have between := derives.between
  have short := derives.short
  cases shape : tree.parameters with
  | nil =>
    exact reads_parameters.2 (.inl ⟨by simp [separated, derives.closed], rfl, rfl⟩)
  | cons first others =>
    rw [shape] at areNames between short
    refine reads_parameters.2 (.inr ⟨?_, short, parameterList_reads _ _ _ _ derives.closed (by simp)
      areNames between derives.isComma⟩)
    obtain ⟨tail, same⟩ := separated_cons [first] (others.map ([·])) tree.commas
    rw [List.map_cons, same]
    simp [areNames first (by simp)]

/-- The rule for the given place. -/
def readSentence (final : Token) : Slot → (tokens : List Token) → Step tokens.length Stmt
  | .declaration, tokens => declaration final tokens
  | .statement, tokens => Grammar.statement final tokens

/-- The rule for a place takes the sentence, unless an `else` follows that belongs to it. -/
def SentenceStands (final : Token) (slot : Slot) (sentence : Sentence) : Prop :=
  ∀ rest, (sentence.takesElse = true → starts (· == .keyword .elseWord) rest = false) →
    (readSentence final slot (sentence.tokens ++ rest)).Reads sentence.stmt rest

/-- No sentence starts with a kind that closes the one in front of it. -/
theorem not_starts_of_sentence {printing : Bool} {slot : Slot} {sentence : Sentence}
    (derives : sentence.Derives IsName printing slot) {kind : TokenKind} (rest : List Token)
    (closes : slot.opensWith kind = false) :
    starts (· == kind) (sentence.tokens ++ rest) = false := by
  obtain ⟨first, others, shape, opens⟩ := derives.opens
  rw [shape, List.cons_append, starts_cons, beq_eq_false_iff_ne]
  rintro rfl
  simp [opens] at closes

theorem not_starts_allTokens {printing : Bool} {body : List Sentence} {kind : TokenKind}
    {rest : List Token}
    (derives : ∀ sentence ∈ body, sentence.Derives IsName printing .declaration)
    (closes : Slot.declaration.opensWith kind = false)
    (stop : starts (· == kind) rest = false) :
    starts (· == kind) (Sentence.allTokens body ++ rest) = false := by
  cases body with
  | nil => exact stop
  | cons first others =>
    rw [Sentence.allTokens, List.append_assoc]
    exact not_starts_of_sentence (derives first (by simp)) _ closes

/-- Declarations that stand are read one after another, up to the end or a closing brace. -/
theorem readsAll_of_stand {inBlock : Bool} {body : List Sentence} {rest : List Token}
    (derives : ∀ sentence ∈ body, sentence.Derives IsName true .declaration)
    (stand : ∀ sentence ∈ body, SentenceStands final .declaration sentence)
    (ends : rest = [] ∨ inBlock = true ∧ starts (· == .rightBrace) rest = true) :
    ReadsAll final inBlock (Sentence.allTokens body ++ rest) (Sentence.stmts body) rest := by
  induction body with
  | nil =>
    rcases ends with rfl | ⟨rfl, closes⟩
    · exact readsAll_nil.2 ⟨rfl, rfl⟩
    · cases rest with
      | nil => cases closes
      | cons first after => exact (readsAll_closed (by simpa using closes)).2 ⟨rfl, rfl⟩
  | cons sentence others ih =>
    have later := ih (fun other member => derives other (by simp [member]))
      (fun other member => stand other (by simp [member]))
    have noElse : starts (· == .keyword .elseWord) rest = false := by
      rcases ends with rfl | ⟨_, closes⟩
      · rfl
      · cases rest with
        | nil => rfl
        | cons first after => simp_all
    have front := stand sentence (by simp) (Sentence.allTokens others ++ rest) fun _ =>
      not_starts_allTokens (fun other member => derives other (by simp [member])) rfl noElse
    obtain ⟨first, after, shape, opens⟩ := (derives sentence (by simp)).opens
    have whole : Sentence.allTokens (sentence :: others) ++ rest =
        first :: (after ++ (Sentence.allTokens others ++ rest)) := by
      simp [Sentence.allTokens, shape]
    rw [shape] at front
    rw [whole]
    refine (readsAll_cons ?_).2 ⟨sentence.stmt, _, Sentence.stmts others, front, later, rfl⟩
    rw [Bool.and_eq_false_iff]
    right
    rw [beq_eq_false_iff_ne]
    intro closed
    simp [closed, Slot.opensWith, opensStatement, Tier.opensWith, isAtom, isSign] at opens

theorem block_reads {body : List Sentence} {closing : Token} (rest : List Token)
    (derives : ∀ sentence ∈ body, sentence.Derives IsName true .declaration)
    (stand : ∀ sentence ∈ body, SentenceStands final .declaration sentence)
    (closed : closing.kind = .rightBrace) :
    (block final (Sentence.allTokens body ++ closing :: rest)).Reads (Sentence.stmts body) rest :=
  reads_block.2 ⟨closing, readsAll_of_stand derives stand (.inr ⟨rfl, by simp [closed]⟩), closed⟩

theorem sentence_stands {slot : Slot} {sentence : Sentence}
    (derives : sentence.Derives IsName true slot) : SentenceStands final slot sentence := by
  induction derives with
  | declare declares =>
    intro rest _
    obtain ⟨more, shape, reads⟩ := variableRule_reads declares rest
    exact reads_declaration.2 (.inr (.inl ⟨_, more, shape, declares.isVar, reads⟩))
  | @function head body closing heads inner closed ih =>
    intro rest _
    obtain ⟨more, header, shape, reads, sameName, sameParameters⟩ :=
      functionHeader_reads heads (Sentence.allTokens body ++ closing :: rest)
    refine reads_declaration.2 (.inl ⟨head.keyword, more, header, _, Sentence.stmts body, ?_,
      heads.isFun, reads, block_reads rest inner ih closed, ?_⟩)
    · rw [← shape]
      simp [Sentence.tokens]
    · rw [sameName, sameParameters]
      rfl
  | statement inner ih =>
    intro rest stop
    exact reads_declaration.2 (.inr (.inr ⟨not_starts_of_sentence inner rest rfl,
      not_starts_of_sentence inner rest rfl, ih rest stop⟩))
  | @expression value semicolon evaluates closed silent =>
    intro rest _
    obtain ⟨first, others, shape, opens⟩ := evaluates.opens
    have whole : (Sentence.expression value semicolon).tokens ++ rest =
        first :: (others ++ semicolon :: rest) := by simp [Sentence.tokens, shape]
    have reads : (expression final (value.tokens ++ semicolon :: rest)).Reads value.expr
        (semicolon :: rest) := expression_reads evaluates rest (.inl closed)
    rw [shape] at reads
    rw [← opensPrint_append (by simp [shape]) rest] at silent
    rw [whole]
    refine (reads_plain ?_).2 (.inr ⟨?_, reads_expressionRule.2 ⟨_, semicolon, reads, closed, rfl⟩⟩)
    · exact not_opensStatement_of_opens opens
    · simpa [opensPrint, shape] using silent
  | @print keyword semicolon value evaluates closed prints =>
    intro rest _
    have isName := isName_of_opensPrint prints
    rw [← opensPrint_append (by simp) rest] at prints
    have whole : (Sentence.print keyword value semicolon).tokens ++ rest =
        keyword :: (value.tokens ++ semicolon :: rest) := by simp [Sentence.tokens]
    rw [whole]
    refine (reads_plain (by simp [isName, opensStatement])).2 (.inl ⟨?_, reads_printRule.2
      ⟨_, semicolon, expression_reads evaluates rest (.inl closed), closed, rfl⟩⟩)
    simpa [opensPrint] using prints
  | @ret keyword semicolon value isReturn evaluates closed =>
    intro rest _
    have whole : (Sentence.ret keyword value semicolon).tokens ++ rest =
        keyword :: (optionalTokens value ++ semicolon :: rest) := by simp [Sentence.tokens]
    have reads : (expressionBefore final semicolon.kind (optionalTokens value ++ semicolon ::
        rest)).Reads (value.map expr) (semicolon :: rest) :=
      expressionBefore_reads evaluates rest (.inl closed)
    rw [closed] at reads
    rw [whole]
    exact (reads_return isReturn).2 (reads_returnRule.2 ⟨_, semicolon, reads, closed, rfl⟩)
  | @block opening closing body opened inner closed ih =>
    intro rest _
    have whole : (Sentence.block opening body closing).tokens ++ rest =
        opening :: (Sentence.allTokens body ++ closing :: rest) := by simp [Sentence.tokens]
    rw [whole]
    exact (reads_braced opened).2 ⟨_, block_reads rest inner ih closed, rfl⟩
  | @branch head consequent heads inner ih =>
    intro rest stop
    have noElse := stop rfl
    obtain ⟨more, shape, reads⟩ := condition_reads heads (consequent.tokens ++ rest)
    have whole : (Sentence.branch head consequent).tokens ++ rest = head.keyword :: more := by
      simpa [Sentence.tokens] using shape
    rw [whole]
    exact (reads_if heads.isWord).2 ⟨_, _, consequent.stmt, rest, reads, ih rest fun _ => noElse,
      .inl ⟨noElse, rfl, rfl⟩⟩
  | @choice head consequent alternative otherwise heads inner nearest isElse last ih ihLast =>
    intro rest stop
    obtain ⟨more, shape, reads⟩ := condition_reads heads
      (consequent.tokens ++ otherwise :: (alternative.tokens ++ rest))
    have whole : (Sentence.choice head consequent otherwise alternative).tokens ++ rest =
        head.keyword :: more := by simpa [Sentence.tokens] using shape
    rw [whole]
    exact (reads_if heads.isWord).2 ⟨_, _, consequent.stmt, _, reads,
      ih (otherwise :: (alternative.tokens ++ rest)) (by simp [nearest]),
      .inr ⟨otherwise, _, alternative.stmt, rfl, isElse, ihLast rest stop, rfl⟩⟩
  | @loop head body heads inner ih =>
    intro rest stop
    obtain ⟨more, shape, reads⟩ := condition_reads heads (body.tokens ++ rest)
    have whole : (Sentence.loop head body).tokens ++ rest = head.keyword :: more := by
      simpa [Sentence.tokens] using shape
    rw [whole]
    exact (reads_while heads.isWord).2 ⟨_, _, body.stmt, reads, ih rest stop, rfl⟩
  | @forLoop head body heads inner ih =>
    intro rest stop
    obtain ⟨more, shape, reads⟩ := forHeader_reads heads (body.tokens ++ rest)
    have whole : (Sentence.forLoop head body).tokens ++ rest = head.keyword :: more := by
      simpa [Sentence.tokens] using shape
    rw [whole]
    exact (reads_for heads.isFor).2 ⟨_, _, body.stmt, reads, ih rest stop, rfl⟩

end TinyScript.Grammar
