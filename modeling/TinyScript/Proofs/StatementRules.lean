import TinyScript.Syntax.Statement
import TinyScript.Proofs.ExpressionRules

/-! What each rule of the statement grammar reads cleanly, in terms of the rules it calls. -/
namespace TinyScript.Grammar

variable {final : Token} {tokens rest : List Token}

theorem reads_expressionBefore {absent : TokenKind} {value : Option Expr} :
    (expressionBefore final absent tokens).Reads value rest ↔
      (starts (· == absent) tokens = true ∧ value = none ∧ tokens = rest) ∨
        (starts (· == absent) tokens = false ∧ ∃ present, value = some present ∧
          (expression final tokens).Reads present rest) := by
  rw [expressionBefore, startsWith_eq_starts]
  cases starts (· == absent) tokens with
  | true => simp [eq_comm]
  | false =>
    simp only [Bool.false_eq_true, ↓reduceIte, Step.reads_weaken, Step.reads_map, false_and,
      true_and, false_or]
    constructor
    · intro found
      obtain ⟨present, reads, rfl⟩ := found
      exact ⟨present, rfl, reads⟩
    · intro found
      obtain ⟨present, rfl, reads⟩ := found
      exact ⟨present, reads, rfl⟩

theorem reads_initializer {value : Option Expr} :
    (initializer final tokens).Reads value rest ↔
      (starts (· == .assign) tokens = false ∧ value = none ∧ tokens = rest) ∨
        ∃ equals more initial, tokens = equals :: more ∧ equals.kind = .assign ∧
          value = some initial ∧ (expression final more).Reads initial rest := by
  rw [initializer]
  constructor
  · intro choice
    rcases reads_take.1 choice with ⟨stop, reads⟩ | ⟨equals, more, rfl, fits, reads⟩
    · left
      simpa [stop, eq_comm] using reads
    · simp only [Step.reads_weaken, Taken.reads_carry, Step.reads_map] at reads
      obtain ⟨initial, reads, rfl⟩ := reads
      exact .inr ⟨equals, more, initial, rfl, by simpa using fits, rfl, reads⟩
  · intro found
    rcases found with ⟨stop, rfl, rfl⟩ | ⟨equals, more, initial, rfl, isAssign, rfl, reads⟩
    · exact reads_take.2 (.inl ⟨stop, by simp⟩)
    · refine reads_take.2 (.inr ⟨equals, more, rfl, by simp [isAssign], ?_⟩)
      simp only [Step.reads_weaken, Taken.reads_carry, Step.reads_map]
      exact ⟨initial, reads, rfl⟩

theorem reads_variableRule {statement : Stmt} :
    (variableRule final tokens).Reads statement rest ↔
      ∃ name more value semicolon, tokens = name :: more ∧ name.kind = .identifier ∧
        (initializer final more).Reads value (semicolon :: rest) ∧ semicolon.kind = .semicolon ∧
        statement = .declare name value := by
  simp only [variableRule, Step.reads_andOptional, Step.reads_andThen, Step.reads_map, reads_expect]
  constructor
  · intro found
    obtain ⟨name, _, ⟨rfl, isName⟩, value, _, reads, semicolon, ⟨rfl, closed⟩, rfl⟩ := found
    exact ⟨name, _, value, semicolon, rfl, isName, reads, closed, rfl⟩
  · intro found
    obtain ⟨name, _, value, semicolon, rfl, isName, reads, closed, rfl⟩ := found
    exact ⟨name, _, ⟨rfl, isName⟩, value, _, reads, semicolon, ⟨rfl, closed⟩, rfl⟩

theorem reads_expressionRule {statement : Stmt} :
    (expressionRule final tokens).Reads statement rest ↔
      ∃ value semicolon, (expression final tokens).Reads value (semicolon :: rest) ∧
        semicolon.kind = .semicolon ∧ statement = .expression value := by
  simp only [expressionRule, Step.reads_andThen, Step.reads_map, reads_expect]
  constructor
  · intro found
    obtain ⟨value, _, reads, semicolon, ⟨rfl, closed⟩, rfl⟩ := found
    exact ⟨value, semicolon, reads, closed, rfl⟩
  · intro found
    obtain ⟨value, semicolon, reads, closed, rfl⟩ := found
    exact ⟨value, _, reads, semicolon, ⟨rfl, closed⟩, rfl⟩

theorem reads_printRule {keyword : Token} {statement : Stmt} :
    (printRule final keyword tokens).Reads statement rest ↔
      ∃ value semicolon, (expression final tokens).Reads value (semicolon :: rest) ∧
        semicolon.kind = .semicolon ∧ statement = printStatement keyword value semicolon := by
  simp only [printRule, Step.reads_andThen, Step.reads_map, reads_expect]
  constructor
  · intro found
    obtain ⟨value, _, reads, semicolon, ⟨rfl, closed⟩, rfl⟩ := found
    exact ⟨value, semicolon, reads, closed, rfl⟩
  · intro found
    obtain ⟨value, semicolon, reads, closed, rfl⟩ := found
    exact ⟨value, _, reads, semicolon, ⟨rfl, closed⟩, rfl⟩

theorem reads_returnRule {keyword : Token} {statement : Stmt} :
    (returnRule final keyword tokens).Reads statement rest ↔
      ∃ value semicolon,
        (expressionBefore final .semicolon tokens).Reads value (semicolon :: rest) ∧
        semicolon.kind = .semicolon ∧ statement = .ret keyword value := by
  simp only [returnRule, Step.reads_andThen, Step.reads_map, reads_expect]
  constructor
  · intro found
    obtain ⟨value, _, reads, semicolon, ⟨rfl, closed⟩, rfl⟩ := found
    exact ⟨value, semicolon, reads, closed, rfl⟩
  · intro found
    obtain ⟨value, semicolon, reads, closed, rfl⟩ := found
    exact ⟨value, _, reads, semicolon, ⟨rfl, closed⟩, rfl⟩

theorem reads_condition {keyword closing : String} {value : Expr} :
    (condition final keyword closing tokens).Reads value rest ↔
      ∃ opening more last, tokens = opening :: more ∧ opening.kind = .leftParen ∧
        (expression final more).Reads value (last :: rest) ∧ last.kind = .rightParen := by
  simp only [condition, Step.reads_andThen, Step.reads_map, reads_expect]
  constructor
  · intro found
    obtain ⟨opening, _, ⟨rfl, opened⟩, _, _, reads, last, ⟨rfl, closed⟩, rfl⟩ := found
    exact ⟨opening, _, last, rfl, opened, reads, closed⟩
  · intro found
    obtain ⟨opening, _, last, rfl, opened, reads, closed⟩ := found
    exact ⟨opening, _, ⟨rfl, opened⟩, value, _, reads, last, ⟨rfl, closed⟩, rfl⟩

theorem reads_forInitializer {value : Option Stmt} :
    (forInitializer final tokens).Reads value rest ↔
      (∃ semicolon, tokens = semicolon :: rest ∧ semicolon.kind = .semicolon ∧ value = none) ∨
        (∃ keyword more statement, tokens = keyword :: more ∧ keyword.kind = .keyword .varWord ∧
          (variableRule final more).Reads statement rest ∧ value = some statement) ∨
        (starts (· == .semicolon) tokens = false ∧ starts (· == .keyword .varWord) tokens = false ∧
          ∃ statement, (expressionRule final tokens).Reads statement rest ∧
            value = some statement) := by
  rw [forInitializer]
  constructor
  · intro choice
    rcases reads_take_or.1 choice with ⟨stop, further⟩ | ⟨semicolon, more, rfl, fits, reads⟩
    · rcases reads_take_or.1 further with ⟨plain, reads⟩ | ⟨keyword, more, rfl, fits, reads⟩
      · obtain ⟨statement, inner, rfl⟩ := Step.reads_map.1 reads
        exact .inr (.inr ⟨stop, plain, statement, inner, rfl⟩)
      · obtain ⟨statement, inner, rfl⟩ := Step.reads_map.1 (Taken.reads_carry.1 reads)
        exact .inr (.inl ⟨keyword, more, statement, rfl, by simpa using fits, inner, rfl⟩)
    · obtain ⟨rfl, _, rfl⟩ := Step.reads_ok.1 reads
      exact .inl ⟨semicolon, rfl, by simpa using fits, rfl⟩
  · rintro (⟨semicolon, rfl, closed, rfl⟩ | ⟨keyword, more, statement, rfl, declares, reads, rfl⟩ |
      ⟨stop, plain, statement, reads, rfl⟩)
    · exact reads_take_or.2 (.inr ⟨semicolon, rest, rfl, by simp [closed], by simp⟩)
    · refine reads_take_or.2 (.inl ⟨by simp [declares], reads_take_or.2 (.inr ⟨keyword, more, rfl,
        by simp [declares], ?_⟩)⟩)
      simp only [Taken.reads_carry, Step.reads_map]
      exact ⟨statement, reads, rfl⟩
    · refine reads_take_or.2 (.inl ⟨stop, reads_take_or.2 (.inl ⟨plain, ?_⟩)⟩)
      exact Step.reads_map.2 ⟨statement, reads, rfl⟩

theorem reads_forHeader {header : ForHeader} :
    (forHeader final tokens).Reads header rest ↔
      ∃ opening more middle semicolon behind closing, tokens = opening :: more ∧
        opening.kind = .leftParen ∧ (forInitializer final more).Reads header.initializer middle ∧
        (expressionBefore final .semicolon middle).Reads header.condition (semicolon :: behind) ∧
        semicolon.kind = .semicolon ∧
        (expressionBefore final .rightParen behind).Reads header.increment (closing :: rest) ∧
        closing.kind = .rightParen := by
  simp only [forHeader, Step.reads_andThen, Step.reads_andOptional, Step.reads_map, reads_expect]
  constructor
  · rintro ⟨opening, _, ⟨rfl, opened⟩, _, middle, first, _, _, second, semicolon, behind,
      ⟨rfl, divided⟩, _, _, third, closing, ⟨rfl, closed⟩, rfl⟩
    exact ⟨opening, _, middle, semicolon, behind, closing, rfl, opened, first, second, divided,
      third, closed⟩
  · rintro ⟨opening, _, middle, semicolon, behind, closing, rfl, opened, first, second, divided,
      third, closed⟩
    exact ⟨opening, _, ⟨rfl, opened⟩, _, middle, first, _, _, second, semicolon, behind,
      ⟨rfl, divided⟩, _, _, third, closing, ⟨rfl, closed⟩, rfl⟩

theorem reads_parameterList {names : List Token} :
    (parameterList final tokens).Reads names rest ↔
      ∃ first middle, tokens = first :: middle ∧ first.kind = .identifier ∧
        ((starts (· == .comma) middle = false ∧ names = [first] ∧ middle = rest) ∨
          ∃ comma more others, middle = comma :: more ∧ comma.kind = .comma ∧
            (parameterList final more).Reads others rest ∧ names = first :: others) := by
  rw [parameterList]
  simp only [Step.reads_bind, reads_expect]
  constructor
  · intro found
    obtain ⟨first, middle, shorter, ⟨rfl, isName⟩, choice⟩ := found
    refine ⟨first, middle, rfl, isName, ?_⟩
    rcases reads_take.1 choice with ⟨stop, reads⟩ | ⟨comma, more, rfl, fits, reads⟩
    · left
      simpa [stop, eq_comm] using reads
    · right
      simp only [Step.reads_behind, Taken.reads_carry, Step.reads_map] at reads
      obtain ⟨others, reads, same⟩ := reads
      exact ⟨comma, more, others, rfl, by simpa using fits, reads, same.symm⟩
  · rintro ⟨first, middle, rfl, isName, ⟨stop, rfl, rfl⟩ | ⟨comma, more, others, rfl, isComma,
      reads, rfl⟩⟩
    · exact ⟨first, middle, by simp, ⟨rfl, isName⟩, reads_take.2 (.inl ⟨stop, by simp⟩)⟩
    · refine ⟨first, comma :: more, by simp, ⟨rfl, isName⟩,
        reads_take.2 (.inr ⟨comma, more, rfl, by simp [isComma], ?_⟩)⟩
      simp only [Step.reads_behind, Taken.reads_carry, Step.reads_map]
      exact ⟨others, reads, rfl⟩

theorem reads_parameters {names : List Token} :
    (parameters final tokens).Reads names rest ↔
      (starts (· == .rightParen) tokens = true ∧ names = [] ∧ tokens = rest) ∨
        (starts (· == .rightParen) tokens = false ∧ names.length < listLimit ∧
          (parameterList final tokens).Reads names rest) := by
  rw [parameters, startsWith_eq_starts]
  cases starts (· == .rightParen) tokens with
  | true => simp [eq_comm]
  | false =>
    simp only [Bool.false_eq_true, ↓reduceIte, Step.reads_weaken, Step.reads_bind, Step.reads_ok,
      lengthErrors_eq_nil, false_and, true_and, false_or]
    constructor
    · intro found
      obtain ⟨_, _, _, reads, rfl, short, rfl⟩ := found
      exact ⟨short, reads⟩
    · intro found
      obtain ⟨short, reads⟩ := found
      exact ⟨names, rest, reads.length_lt, reads, rfl, short, rfl⟩

theorem reads_functionHeader {header : FunctionHeader} :
    (functionHeader final tokens).Reads header rest ↔
      ∃ opening more closing brace, tokens = header.name :: opening :: more ∧
        header.name.kind = .identifier ∧ opening.kind = .leftParen ∧
        (parameters final more).Reads header.parameters (closing :: brace :: rest) ∧
        closing.kind = .rightParen ∧ brace.kind = .leftBrace := by
  simp only [functionHeader, Step.reads_andThen, Step.reads_andOptional, Step.reads_map,
    reads_expect]
  constructor
  · rintro ⟨name, _, ⟨rfl, isName⟩, opening, more, ⟨rfl, opened⟩, names, _, reads, closing, _,
      ⟨rfl, closed⟩, brace, ⟨rfl, braced⟩, rfl⟩
    exact ⟨opening, more, closing, brace, rfl, isName, opened, reads, closed, braced⟩
  · intro found
    obtain ⟨opening, more, closing, brace, rfl, isName, opened, reads, closed, braced⟩ := found
    exact ⟨_, _, ⟨rfl, isName⟩, opening, more, ⟨rfl, opened⟩, _, _, reads, closing, _, ⟨rfl, closed⟩,
      brace, ⟨rfl, braced⟩, rfl⟩

variable {first : Token} {statement : Stmt}

theorem reads_for (isFor : first.kind = .keyword .forWord) :
    (Grammar.statement final (first :: tokens)).Reads statement rest ↔
      ∃ header middle body, (forHeader final tokens).Reads header middle ∧
        (Grammar.statement final middle).Reads body rest ∧ statement = header.loop body := by
  rw [Grammar.statement.eq_def]
  simp only [isFor, Step.reads_weaken, Step.reads_bind, Step.reads_behind, Step.reads_map]
  constructor
  · intro found
    obtain ⟨header, middle, _, front, body, reads, rfl⟩ := found
    exact ⟨header, middle, body, front, reads, rfl⟩
  · intro found
    obtain ⟨header, middle, body, front, reads, rfl⟩ := found
    exact ⟨header, middle, front.length_lt, front, body, reads, rfl⟩

theorem reads_while (isWhile : first.kind = .keyword .whileWord) :
    (Grammar.statement final (first :: tokens)).Reads statement rest ↔
      ∃ value middle body,
        (condition final "while" "')' after condition" tokens).Reads value middle ∧
        (Grammar.statement final middle).Reads body rest ∧ statement = .loop value body := by
  rw [Grammar.statement.eq_def]
  simp only [isWhile, Step.reads_weaken, Step.reads_bind, Step.reads_behind, Step.reads_map]
  constructor
  · intro found
    obtain ⟨value, middle, _, front, body, reads, rfl⟩ := found
    exact ⟨value, middle, body, front, reads, rfl⟩
  · intro found
    obtain ⟨value, middle, body, front, reads, rfl⟩ := found
    exact ⟨value, middle, front.length_lt, front, body, reads, rfl⟩

theorem reads_if (isIf : first.kind = .keyword .ifWord) :
    (Grammar.statement final (first :: tokens)).Reads statement rest ↔
      ∃ value middle consequent behind,
        (condition final "if" "')' after if condition" tokens).Reads value middle ∧
        (Grammar.statement final middle).Reads consequent behind ∧
        ((starts (· == .keyword .elseWord) behind = false ∧
            statement = .branch value consequent none ∧ behind = rest) ∨
          ∃ word more alternative, behind = word :: more ∧ word.kind = .keyword .elseWord ∧
            (Grammar.statement final more).Reads alternative rest ∧
            statement = .branch value consequent (some alternative)) := by
  rw [Grammar.statement.eq_def]
  simp only [isIf, Step.reads_weaken, Step.reads_bind, Step.reads_behind]
  constructor
  · intro found
    obtain ⟨value, middle, _, front, consequent, behind, _, reads, choice⟩ := found
    refine ⟨value, middle, consequent, behind, front, reads, ?_⟩
    rcases reads_take.1 choice with ⟨stop, last⟩ | ⟨word, more, rfl, fits, last⟩
    · left
      simpa [stop, eq_comm] using last
    · right
      simp only [Step.reads_behind, Taken.reads_carry, Step.reads_map] at last
      obtain ⟨alternative, last, same⟩ := last
      exact ⟨word, more, alternative, rfl, by simpa using fits, last, same.symm⟩
  · intro found
    obtain ⟨value, middle, consequent, behind, front, reads, choice⟩ := found
    have shorter := front.length_lt
    have smaller := reads.length_lt
    refine ⟨value, middle, shorter, front, consequent, behind, by omega, reads, ?_⟩
    rcases choice with ⟨stop, rfl, rfl⟩ | ⟨word, more, alternative, rfl, isElse, last, rfl⟩
    · exact reads_take.2 (.inl ⟨stop, by simp⟩)
    · refine reads_take.2 (.inr ⟨word, more, rfl, by simp [isElse], ?_⟩)
      simp only [Step.reads_behind, Taken.reads_carry, Step.reads_map]
      exact ⟨alternative, last, rfl⟩

theorem reads_return (isReturn : first.kind = .keyword .returnWord) :
    (Grammar.statement final (first :: tokens)).Reads statement rest ↔
      (returnRule final first tokens).Reads statement rest := by
  rw [Grammar.statement.eq_def]
  simp only [isReturn]

theorem reads_braced (isBrace : first.kind = .leftBrace) :
    (Grammar.statement final (first :: tokens)).Reads statement rest ↔
      ∃ body, (block final tokens).Reads body rest ∧ statement = .block body := by
  rw [Grammar.statement.eq_def]
  simp only [isBrace, Step.reads_map, eq_comm]

/-- Kinds of tokens that a statement of its own rule starts with. -/
def opensStatement : TokenKind → Bool
  | .keyword .forWord | .keyword .ifWord | .keyword .returnWord | .keyword .whileWord => true
  | .leftBrace => true
  | _ => false

theorem opensStatement_cases {kind : TokenKind} (opens : opensStatement kind = true) :
    kind = .keyword .forWord ∨ kind = .keyword .ifWord ∨ kind = .keyword .returnWord ∨
      kind = .keyword .whileWord ∨ kind = .leftBrace := by
  unfold opensStatement at opens
  split at opens <;> simp_all

theorem reads_plain (plain : opensStatement first.kind = false) :
    (Grammar.statement final (first :: tokens)).Reads statement rest ↔
      (startsPrint first tokens = true ∧ (printRule final first tokens).Reads statement rest) ∨
        (startsPrint first tokens = false ∧
          (expressionRule final (first :: tokens)).Reads statement rest) := by
  rw [Grammar.statement.eq_def]
  dsimp only
  split
  case h_6 =>
    cases startsPrint first tokens with
    | true => simp
    | false => simp
  all_goals simp_all [opensStatement]

theorem reads_declaration :
    (declaration final tokens).Reads statement rest ↔
      (∃ keyword more header middle body, tokens = keyword :: more ∧
          keyword.kind = .keyword .funWord ∧ (functionHeader final more).Reads header middle ∧
          (block final middle).Reads body rest ∧
          statement = .function header.name header.parameters body) ∨
        (∃ keyword more, tokens = keyword :: more ∧ keyword.kind = .keyword .varWord ∧
          (variableRule final more).Reads statement rest) ∨
        (starts (· == .keyword .funWord) tokens = false ∧
          starts (· == .keyword .varWord) tokens = false ∧
          (Grammar.statement final tokens).Reads statement rest) := by
  rw [declaration]
  constructor
  · intro choice
    rcases reads_take_or.1 choice with ⟨noFunction, further⟩ | ⟨keyword, more, rfl, fits, reads⟩
    · rcases reads_take_or.1 further with ⟨noVariable, reads⟩ | ⟨keyword, more, rfl, fits, reads⟩
      · exact .inr (.inr ⟨noFunction, noVariable, reads⟩)
      · exact .inr (.inl ⟨keyword, more, rfl, by simpa using fits, Taken.reads_carry.1 reads⟩)
    · simp only [Step.reads_bind, Taken.reads_carry, Step.reads_lift, Step.reads_map] at reads
      obtain ⟨header, middle, _, front, body, inner, rfl⟩ := reads
      exact .inl ⟨keyword, more, header, middle, body, rfl, by simpa using fits, front, inner, rfl⟩
  · rintro (⟨keyword, more, header, middle, body, rfl, isFunction, front, inner, rfl⟩ |
      ⟨keyword, more, rfl, isVariable, reads⟩ | ⟨noFunction, noVariable, reads⟩)
    · refine reads_take_or.2 (.inr ⟨keyword, more, rfl, by simp [isFunction], ?_⟩)
      simp only [Step.reads_bind, Taken.reads_carry, Step.reads_lift, Step.reads_map]
      have shorter := front.length_lt
      exact ⟨header, middle, by simp only [List.length_cons]; omega, front, body, inner, rfl⟩
    · exact reads_take_or.2 (.inl ⟨by simp [isVariable], reads_take_or.2 (.inr ⟨keyword, more, rfl,
        by simp [isVariable], Taken.reads_carry.2 reads⟩)⟩)
    · exact reads_take_or.2 (.inl ⟨noFunction, reads_take_or.2 (.inl ⟨noVariable, reads⟩)⟩)

/-- Declarations read one after another without an error, up to `rest`. -/
def ReadsAll (final : Token) (inBlock : Bool) (tokens : List Token) (body : List Stmt)
    (rest : List Token) : Prop :=
  (declarations final inBlock tokens).statements = body ∧
    (declarations final inBlock tokens).errors = [] ∧
    (declarations final inBlock tokens).rest = rest

theorem reads_block {body : List Stmt} :
    (block final tokens).Reads body rest ↔
      ∃ closing, ReadsAll final true tokens body (closing :: rest) ∧ closing.kind = .rightBrace := by
  rw [block]
  constructor
  · intro reads
    split at reads
    · next closing noted more shorter outcome =>
      simp only [Step.reads_ok, List.append_eq_nil_iff] at reads
      obtain ⟨rfl, ⟨quiet, rfl⟩, rfl⟩ := reads
      obtain ⟨shape, closed⟩ := reads_expect.1 ⟨shorter, outcome⟩
      exact ⟨closing, ⟨rfl, quiet, shape⟩, closed⟩
    · exact absurd reads Step.not_reads_fail
  · intro found
    obtain ⟨closing, ⟨rfl, quiet, shape⟩, closed⟩ := found
    obtain ⟨_, outcome⟩ : (expect final .rightBrace "'\x7d' after block"
        (declarations final true tokens).rest).Reads closing rest := reads_expect.2 ⟨shape, closed⟩
    simp [outcome, quiet]

theorem readsAll_nil {inBlock : Bool} {body : List Stmt} :
    ReadsAll final inBlock [] body rest ↔ body = [] ∧ rest = [] := by
  simp [ReadsAll, declarations, eq_comm]

theorem readsAll_closed {body : List Stmt} (closed : first.kind = .rightBrace) :
    ReadsAll final true (first :: tokens) body rest ↔ body = [] ∧ rest = first :: tokens := by
  rw [ReadsAll, declarations.eq_def]
  simp [closed, eq_comm]

theorem readsAll_cons {inBlock : Bool} {body : List Stmt}
    (goesOn : (inBlock && first.kind == .rightBrace) = false) :
    ReadsAll final inBlock (first :: tokens) body rest ↔
      ∃ statement middle others, (declaration final (first :: tokens)).Reads statement middle ∧
        ReadsAll final inBlock middle others rest ∧ body = statement :: others := by
  rw [ReadsAll, declarations.eq_def]
  simp only [goesOn]
  constructor
  · intro reads
    simp only [Bool.false_eq_true, ↓reduceIte] at reads
    split at reads
    · next statement noted middle shorter outcome =>
      simp only [List.append_eq_nil_iff] at reads
      obtain ⟨rfl, ⟨rfl, quiet⟩, rfl⟩ := reads
      exact ⟨statement, middle, _, ⟨shorter, outcome⟩, ⟨rfl, quiet, rfl⟩, rfl⟩
    · simp at reads
  · intro found
    obtain ⟨statement, middle, others, ⟨shorter, outcome⟩, ⟨rfl, quiet, rfl⟩, rfl⟩ := found
    simp [outcome, quiet]

end TinyScript.Grammar
