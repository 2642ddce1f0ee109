import TinyScript.Proofs.Acceptance
import TinyScript.Proofs.ExpressionShape

/-! Statements without braces and keywords, well formed or not: whatever stands in front of the first
semicolon, parsing goes on right behind it. -/
namespace TinyScript

/-- Kinds of tokens that flat statements are made of. -/
def TokenKind.isFlat (kind : TokenKind) : Bool :=
  !kind.startsStatement && kind != .semicolon && kind != .leftBrace && kind != .rightBrace &&
    kind != .endOfInput

theorem TokenKind.ne_of_isFlat {kind other : TokenKind} (flat : kind.isFlat = true)
    (bumpy : other.isFlat = false) : kind ≠ other := by
  rintro rfl
  rw [flat] at bumpy
  cases bumpy

variable {stop : Token}

theorem expect_of_eq {token : Token} {kind : TokenKind} (same : token.kind = kind) (final : Token)
    (what : String) (rest : List Token) :
    expect final kind what (token :: rest) = .ok token [] rest (Nat.lt_succ_self _) := by
  simp [expect, take?, same]

theorem expect_of_ne {token : Token} {kind : TokenKind} (differs : token.kind ≠ kind) (final : Token)
    (what : String) (rest : List Token) :
    expect final kind what (token :: rest) =
      .fail ⟨.expected what, token⟩ [] (token :: rest) (Nat.le_refl _) := by
  simp [expect, take?, differs, current]

/-- Lists of the same flat tokens in front of the same semicolon, whatever stands behind it. -/
def Course.upTo (closes : stop.kind = .semicolon) (final final' : Token) (more more' : List Token) :
    Course final final' where
  ahead tokens tokens' := ∃ front : List Token, (∀ token ∈ front, token.kind.isFlat = true) ∧
    tokens = front ++ stop :: more ∧ tokens' = front ++ stop :: more'
  source _ := True
  look := by
    rintro _ _ ⟨front, flat, rfl, rfl⟩
    cases front with
    | nil => exact .inr ⟨stop, more, more', rfl, rfl, trivial, fun plain => absurd closes plain⟩
    | cons first others =>
      refine .inr ⟨first, _, _, rfl, rfl, trivial, fun _ => ⟨others, ?_, rfl, rfl⟩⟩
      exact fun token member => flat token (List.mem_cons_of_mem _ member)

/-- Both steps take everything up to and including the semicolon, or both stop at the same error in
front of it. -/
inductive Step.Settled (stop : Token) (more more' : List Token) {limit limit' : Nat} :
    Step limit Stmt → Step limit' Stmt → Prop where
  | ok {statement : Stmt} {noted : List SyntaxError} {shorter : more.length < limit}
      {shorter' : more'.length < limit'} (mild : ∀ error ∈ noted, error.cause.stops = false) :
      Settled stop more more' (.ok statement noted more shorter) (.ok statement noted more' shorter')
  | fail {error : SyntaxError} {noted : List SyntaxError} {front : List Token}
      {within : (front ++ stop :: more).length ≤ limit}
      {within' : (front ++ stop :: more').length ≤ limit'}
      (stopped : error.cause.stops = true) (mild : ∀ error ∈ noted, error.cause.stops = false)
      (flat : ∀ token ∈ front, token.kind.isFlat = true) :
      Settled stop more more' (.fail error noted _ within) (.fail error noted _ within')

namespace Step

variable {more more' : List Token} {limit limit' : Nat} {final final' : Token}
variable {closes : stop.kind = .semicolon}

theorem Settled.lift {step : Step limit Stmt} {step' : Step limit' Stmt} {larger larger' : Nat}
    (settled : step.Settled stop more more' step') (le : limit ≤ larger) (le' : limit' ≤ larger') :
    (step.lift le).Settled stop more more' (step'.lift le') := by
  cases settled with
  | ok mild => exact .ok mild
  | fail stopped mild flat => exact .fail stopped mild flat

/-- Behind a step that stays in front of the semicolon, the semicolon either is next or is missed. -/
theorem Abreast.terminated {α : Type} {values : α → List Token → Prop} {step : Step limit α}
    {step' : Step limit' α} {change : α → Token → Stmt} {what : String}
    (abreast : step.Abreast (.upTo closes final final' more more') (·.stops = false) values step') :
    (step.andThen fun value rest =>
        (expect final .semicolon what rest).map (change value)).Settled stop more more'
      (step'.andThen fun value rest =>
        (expect final' .semicolon what rest).map (change value)) := by
  cases abreast with
  | fail stopped errors left =>
    obtain ⟨front, flat, rfl, rfl⟩ := left
    exact .fail stopped.2 (fun error member => (errors error member).2) flat
  | @ok value noted _ _ _ _ _ errors left =>
    have mild : ∀ error ∈ noted ++ [], error.cause.stops = false := by
      rw [List.append_nil]
      exact fun error member => (errors error member).2
    obtain ⟨front, flat, rfl, rfl⟩ := left
    cases front with
    | nil =>
      simp only [List.nil_append, Step.andThen, Step.bind, expect_of_eq closes]
      exact .ok mild
    | cons first others =>
      have differs : first.kind ≠ .semicolon :=
        TokenKind.ne_of_isFlat (flat first List.mem_cons_self) rfl
      simp only [List.cons_append, Step.andThen, Step.bind, expect_of_ne differs]
      exact .fail rfl mild flat

end Step

/-- What comes of a flat statement: it is read, or it is lost to one error that stops it. Errors that
stop nothing may come before. -/
inductive Outlay : List Stmt → List SyntaxError → Prop where
  | read (statement : Stmt) {errors : List SyntaxError}
      (mild : ∀ error ∈ errors, error.cause.stops = false) : Outlay [statement] errors
  | lost {noted : List SyntaxError} {last : SyntaxError}
      (mild : ∀ error ∈ noted, error.cause.stops = false) (stopped : last.cause.stops = true) :
      Outlay [] (noted ++ [last])

namespace Grammar

theorem resume_behind (closes : stop.kind = .semicolon) (more : List Token) :
    resume stop more = more := by
  cases more with
  | nil => rfl
  | cons first others => simp [resume, closes]

/-- Among flat tokens, nothing but the semicolon makes recovery stop. -/
theorem resume_flat (closes : stop.kind = .semicolon) {dropped : Token} {front : List Token}
    (lingers : dropped.kind ≠ .semicolon) (flat : ∀ token ∈ front, token.kind.isFlat = true)
    (more : List Token) : resume dropped (front ++ stop :: more) = more := by
  induction front generalizing dropped with
  | nil =>
    have plain : stop.kind.startsStatement = false := by rw [closes]; rfl
    rw [List.nil_append, resume, beq_eq_false_iff_ne.2 lingers, plain]
    exact resume_behind closes more
  | cons first others ih =>
    have isFlat := flat first List.mem_cons_self
    have plain : first.kind.startsStatement = false := by
      simp only [TokenKind.isFlat, Bool.and_eq_true, Bool.not_eq_true'] at isFlat
      exact isFlat.1.1.1.1
    rw [List.cons_append, resume, beq_eq_false_iff_ne.2 lingers, plain]
    exact ih (TokenKind.ne_of_isFlat isFlat rfl)
      fun token member => flat token (List.mem_cons_of_mem _ member)

/-- Recovery from an error in a flat statement ends right behind its semicolon. -/
theorem recover_flat (closes : stop.kind = .semicolon) {front : List Token}
    (flat : ∀ token ∈ front, token.kind.isFlat = true) (more : List Token) :
    recover (front ++ stop :: more) = more := by
  cases front with
  | nil => exact resume_behind closes more
  | cons first others =>
    exact resume_flat closes (TokenKind.ne_of_isFlat (flat first List.mem_cons_self) rfl)
      (fun token member => flat token (List.mem_cons_of_mem _ member)) more

variable {final final' : Token} {more more' : List Token}

theorem declaration_of_plain {first : Token} (plain : opensStatement first.kind = false)
    (noFunction : first.kind ≠ .keyword .funWord) (noVariable : first.kind ≠ .keyword .varWord)
    (rest : List Token) :
    declaration final (first :: rest) =
      if startsPrint first rest then (printRule final first rest).weaken
      else expressionRule final (first :: rest) := by
  rw [declaration]
  simp only [take?, beq_eq_false_iff_ne.2 noFunction, beq_eq_false_iff_ne.2 noVariable,
    Bool.false_eq_true, ↓reduceIte]
  rw [statement.eq_def]
  dsimp only
  split
  case h_6 => rfl
  all_goals simp_all [opensStatement]

theorem declaration_of_flat {first : Token} (flat : first.kind.isFlat = true ∨ first.kind = .semicolon)
    (rest : List Token) :
    declaration final (first :: rest) =
      if startsPrint first rest then (printRule final first rest).weaken
      else expressionRule final (first :: rest) := by
  have plain {kind : TokenKind} (bumpy : kind.isFlat = false) (other : kind ≠ .semicolon) :
      first.kind ≠ kind := by
    rcases flat with isFlat | isStop
    · exact TokenKind.ne_of_isFlat isFlat bumpy
    · exact isStop ▸ other.symm
  refine declaration_of_plain ?_ (plain rfl (by decide)) (plain rfl (by decide)) rest
  rw [Bool.eq_false_iff]
  intro opens
  rcases opensStatement_cases opens with same | same | same | same | same
  all_goals exact plain rfl (by decide) same

/-- Whatever a flat statement comes to does not depend on what stands behind its semicolon. -/
theorem declaration_settled (closes : stop.kind = .semicolon) {front : List Token}
    (flat : ∀ token ∈ front, token.kind.isFlat = true) :
    (declaration final (front ++ stop :: more)).Settled stop more more'
      (declaration final' (front ++ stop :: more')) := by
  let course := Course.upTo closes final final' more more'
  have ahead : course.ahead (front ++ stop :: more) (front ++ stop :: more') :=
    ⟨front, flat, rfl, rfl⟩
  have evaluated : (expressionRule final (front ++ stop :: more)).Settled stop more more'
      (expressionRule final' (front ++ stop :: more')) :=
    (expression_fits _ ahead).terminated
  cases front with
  | nil =>
    have silent (rest : List Token) : startsPrint stop rest = false := by simp [startsPrint, closes]
    simp only [List.nil_append, declaration_of_flat (.inr closes), silent]
    exact evaluated
  | cons first others =>
    have behind : course.ahead (others ++ stop :: more) (others ++ stop :: more') :=
      ⟨others, fun token member => flat token (List.mem_cons_of_mem _ member), rfl, rfl⟩
    have same : startsPrint first (others ++ stop :: more) =
        startsPrint first (others ++ stop :: more') := by
      rw [startsPrint, startsPrint, course.startsWith_eq behind]
    simp only [List.cons_append, declaration_of_flat (.inl (flat first List.mem_cons_self)), same]
    split
    · exact (expression_fits _ behind).terminated.lift _ _
    · exact evaluated

theorem declarations_of_ok {tokens rest : List Token} {statement : Stmt} {noted : List SyntaxError}
    {shorter : rest.length < tokens.length}
    (outcome : declaration final tokens = .ok statement noted rest shorter) :
    (declarations final false tokens).statements =
        statement :: (declarations final false rest).statements ∧
      (declarations final false tokens).errors =
        noted ++ (declarations final false rest).errors := by
  cases tokens with
  | nil => cases shorter
  | cons first after =>
    rw [declarations.eq_def final false (first :: after)]
    simp [outcome]

theorem declarations_of_fail {tokens rest : List Token} {error : SyntaxError}
    {noted : List SyntaxError} {within : rest.length ≤ tokens.length} (present : tokens ≠ [])
    (outcome : declaration final tokens = .fail error noted rest within) :
    (declarations final false tokens).statements =
        (declarations final false (recover rest)).statements ∧
      (declarations final false tokens).errors =
        noted ++ error :: (declarations final false (recover rest)).errors := by
  cases tokens with
  | nil => exact absurd rfl present
  | cons first after =>
    rw [declarations.eq_def final false (first :: after)]
    simp [outcome]

/-- A flat statement has the same statements and errors in front of both lists. -/
theorem declarations_flat (closes : stop.kind = .semicolon) {front : List Token}
    (flat : ∀ token ∈ front, token.kind.isFlat = true) (final final' : Token)
    (more more' : List Token) :
    ∃ statements errors, Outlay statements errors ∧
      (declarations final false (front ++ stop :: more)).statements =
        statements ++ (declarations final false more).statements ∧
      (declarations final false (front ++ stop :: more)).errors =
        errors ++ (declarations final false more).errors ∧
      (declarations final' false (front ++ stop :: more')).statements =
        statements ++ (declarations final' false more').statements ∧
      (declarations final' false (front ++ stop :: more')).errors =
        errors ++ (declarations final' false more').errors := by
  have settled : (declaration final (front ++ stop :: more)).Settled stop more more'
      (declaration final' (front ++ stop :: more')) := declaration_settled closes flat
  generalize outcome : declaration final (front ++ stop :: more) = step,
    outcome' : declaration final' (front ++ stop :: more') = step' at settled
  cases settled with
  | @ok statement noted _ _ mild =>
    obtain ⟨statements, errors⟩ := declarations_of_ok outcome
    obtain ⟨statements', errors'⟩ := declarations_of_ok outcome'
    exact ⟨[statement], noted, .read statement mild, statements, errors, statements', errors'⟩
  | @fail last noted left _ _ stopped mild leftFlat =>
    obtain ⟨statements, errors⟩ := declarations_of_fail (by simp) outcome
    obtain ⟨statements', errors'⟩ := declarations_of_fail (by simp) outcome'
    rw [recover_flat closes leftFlat] at statements errors statements' errors'
    exact ⟨[], noted ++ [last], .lost mild stopped, statements, by simp [errors], statements',
      by simp [errors']⟩

end Grammar

theorem parseTokens_closed {tokens : List Token} {final : Token}
    (noEnd : ∀ token ∈ tokens, token.kind ≠ .endOfInput) (isEnd : final.kind = .endOfInput) :
    parseTokens (tokens ++ [final]) = ⟨(Grammar.declarations final false tokens).statements,
      (Grammar.declarations final false tokens).errors, []⟩ := by
  rw [parseTokens, List.map_append]
  exact parseItems_closed [] noEnd isEnd

/-- There is at most one statement, and none exactly when an error stopped it. That error is the last,
and the only one of its sort. -/
theorem Outlay.cases {statements : List Stmt} {errors : List SyntaxError}
    (outlay : Outlay statements errors) :
    statements.length ≤ 1 ∧ (statements = [] ↔ ∃ error ∈ errors, error.cause.stops = true) ∧
      (statements = [] → ∃ noted last, errors = noted ++ [last] ∧ last.cause.stops = true ∧
        ∀ error ∈ noted, error.cause.stops = false) := by
  cases outlay with
  | read statement mild =>
    refine ⟨Nat.le_refl _, ⟨by simp, ?_⟩, by simp⟩
    rintro ⟨error, member, stopped⟩
    rw [mild error member] at stopped
    cases stopped
  | @lost noted last mild stopped =>
    have witnessed : ∃ error ∈ noted ++ [last], error.cause.stops = true :=
      ⟨last, List.mem_append_right _ List.mem_cons_self, stopped⟩
    exact ⟨Nat.zero_le _, ⟨fun _ => witnessed, fun _ => rfl⟩,
      fun _ => ⟨noted, last, rfl, stopped, mild⟩⟩

/-- Flat tokens in front of a semicolon are parsed by themselves, and so is what stands behind it. They
come to at most one statement, and to none exactly when an error stops the rule they are read by. Then
that error is the last of theirs, and the others stop nothing. -/
theorem flat_statement_parsed_apart {front behind : List Token} {stop final final' : Token}
    (flat : ∀ token ∈ front, token.kind.isFlat = true) (closes : stop.kind = .semicolon)
    (unended : ∀ token ∈ behind, token.kind ≠ .endOfInput) (isEnd : final.kind = .endOfInput)
    (isEnd' : final'.kind = .endOfInput) :
    ∃ part, parseTokens (front ++ [stop] ++ [final']) = part ∧
      (parseTokens (front ++ [stop] ++ behind ++ [final])).statements =
        part.statements ++ (parseTokens (behind ++ [final])).statements ∧
      (parseTokens (front ++ [stop] ++ behind ++ [final])).errors =
        part.errors ++ (parseTokens (behind ++ [final])).errors ∧
      part.statements.length ≤ 1 ∧
      (part.statements = [] ↔ ∃ error ∈ part.errors, error.cause.stops = true) ∧
      (part.statements = [] → ∃ noted last, part.errors = noted ++ [last] ∧
        last.cause.stops = true ∧ ∀ error ∈ noted, error.cause.stops = false) := by
  have noEnd (more : List Token) (others : ∀ token ∈ more, token.kind ≠ .endOfInput) :
      ∀ token ∈ front ++ stop :: more, token.kind ≠ .endOfInput := by
    simp only [List.mem_append, List.mem_cons]
    rintro token (member | rfl | member)
    · exact TokenKind.ne_of_isFlat (flat token member) rfl
    · simp [closes]
    · exact others token member
  obtain ⟨statements, errors, outlay, wholeStatements, wholeErrors, partStatements, partErrors⟩ :=
    Grammar.declarations_flat closes flat final final' behind []
  have part : parseTokens (front ++ [stop] ++ [final']) = ⟨statements, errors, []⟩ := by
    rw [parseTokens_closed (noEnd [] (by simp)) isEnd', partStatements, partErrors]
    simp [Grammar.declarations]
  have shape : front ++ [stop] ++ behind = front ++ stop :: behind := by simp
  refine ⟨⟨statements, errors, []⟩, part, ?_⟩
  rw [shape, parseTokens_closed (noEnd behind unended) isEnd, parseTokens_closed unended isEnd]
  exact ⟨wholeStatements, wholeErrors, outlay.cases⟩

private def piece (kind : TokenKind) (lexeme : String) : Token :=
  { kind, lexeme, line := 1, span := ⟨0, 0⟩ }

private def malformed : List Token :=
  [piece .number "1", piece .assign "=", piece .number "2", piece .number "3"]

private def intact : List Token := [piece .identifier "x", piece .semicolon ";"]

/-- For `1 = 2 3; x;`, the target is noted, the missing semicolon loses the first statement, and the
second is read. -/
theorem second_statement_survives :
    (parseTokens (malformed ++ [piece .semicolon ";"] ++ intact ++ [piece .endOfInput ""])).statements =
        [.expression (.var (piece .identifier "x"))] ∧
      (parseTokens (malformed ++ [piece .semicolon ";"] ++ intact ++ [piece .endOfInput ""])).errors =
        [⟨.invalidAssignmentTarget, piece .assign "="⟩,
          ⟨.expected "';' after expression", piece .number "3"⟩] := by
  have flat : ∀ token ∈ malformed, token.kind.isFlat = true := by decide
  have unended : ∀ token ∈ intact, token.kind ≠ .endOfInput := by decide
  have closes : (piece .semicolon ";").kind = .semicolon := rfl
  have isEnd : (piece .endOfInput "").kind = .endOfInput := rfl
  obtain ⟨part, shape, statements, errors, _⟩ :=
    flat_statement_parsed_apart flat closes unended isEnd isEnd
  rw [statements, errors, ← shape]
  exact ⟨by cbv, by cbv⟩

end TinyScript
