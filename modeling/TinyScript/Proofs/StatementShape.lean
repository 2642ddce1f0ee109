import TinyScript.Proofs.Canonical
import TinyScript.Proofs.ExpressionShape
import TinyScript.Syntax.Program

/-! The shape of parsed statements: whatever the tokens, and whatever recovery drops on the way, every
statement that comes of them is one the grammar of statements allows, over tokens of the source. -/
namespace TinyScript

namespace Stmt

def isDeclaration : Stmt → Bool
  | .declare .. | .function .. => true
  | _ => false

mutual
/-- All expressions are well shaped, all names are identifiers, branches and loops hold no bare
declarations, and no `else` stands behind a statement that would take it. -/
def wellShaped : Stmt → Bool
  | .expression value => value.wellShaped
  | .declare name initializer => name.kind == .identifier && initializer.all Expr.wellShaped
  | .block statements => allWellShaped statements
  | .branch condition consequent none =>
    condition.wellShaped && !consequent.isDeclaration && consequent.wellShaped
  | .branch condition consequent (some alternative) =>
    condition.wellShaped && !consequent.isDeclaration && !consequent.takesElse &&
      consequent.wellShaped && !alternative.isDeclaration && alternative.wellShaped
  | .loop condition body => condition.wellShaped && !body.isDeclaration && body.wellShaped
  | .function name parameters body =>
    name.kind == .identifier && parameters.all (·.kind == .identifier) && allWellShaped body
  | .ret _ value => value.all Expr.wellShaped

def allWellShaped : List Stmt → Bool
  | [] => true
  | first :: others => first.wellShaped && allWellShaped others
end

mutual
/-- The tokens kept in a statement. -/
def tokens : Stmt → List Token
  | .expression value => value.tokens
  | .declare name initializer => name :: initializer.toList.flatMap Expr.tokens
  | .block statements => allTokens statements
  | .branch condition consequent none => condition.tokens ++ consequent.tokens
  | .branch condition consequent (some alternative) =>
    condition.tokens ++ (consequent.tokens ++ alternative.tokens)
  | .loop condition body => condition.tokens ++ body.tokens
  | .function name parameters body => name :: (parameters ++ allTokens body)
  | .ret keyword value => keyword :: value.toList.flatMap Expr.tokens

def allTokens : List Stmt → List Token
  | [] => []
  | first :: others => first.tokens ++ allTokens others
end

mutual
/-- The statements inside a statement, at any depth. -/
def inner : Stmt → List Stmt
  | .block statements => allParts statements
  | .branch _ consequent none => consequent :: consequent.inner
  | .branch _ consequent (some alternative) =>
    consequent :: consequent.inner ++ alternative :: alternative.inner
  | .loop _ body => body :: body.inner
  | .function _ _ body => allParts body
  | .expression _ | .declare .. | .ret .. => []

/-- The statements and all statements inside them. -/
def allParts : List Stmt → List Stmt
  | [] => []
  | first :: others => first :: first.inner ++ allParts others
end

theorem allWellShaped_iff (statements : List Stmt) :
    allWellShaped statements = true ↔ ∀ statement ∈ statements, statement.wellShaped = true := by
  induction statements with
  | nil => simp [allWellShaped]
  | cons first others ih => simp [allWellShaped, ih]

theorem mem_allTokens {token : Token} (statements : List Stmt) :
    token ∈ allTokens statements ↔ ∃ statement ∈ statements, token ∈ statement.tokens := by
  induction statements with
  | nil => simp [allTokens]
  | cons first others ih => simp [allTokens, ih]

theorem parts_subset {statement : Stmt} {statements : List Stmt} (member : statement ∈ statements) :
    statement :: statement.inner ⊆ allParts statements := by
  induction statements with
  | nil => cases member
  | cons first others ih =>
    rw [allParts]
    rcases List.mem_cons.1 member with rfl | later
    · exact List.subset_append_left _ _
    · exact List.subset_append_of_subset_right _ (ih later)

end Stmt

/-- One of the statements is a print statement with this keyword and semicolon, both from the source. -/
structure PrintedIn (source : Token → Prop) (statements : List Stmt) (keyword semicolon : Token) :
    Prop where
  opens : source keyword
  word : keyword.kind = .identifier ∧ keyword.lexeme = "print"
  closes : source semicolon
  mark : semicolon.kind = .semicolon
  listed : ∃ value, printStatement keyword value semicolon ∈ statements

/-- The token is from the source, or it was made up for one of the print statements. -/
inductive Token.StemsFrom (source : Token → Prop) (statements : List Stmt) : Token → Prop where
  | own {token : Token} (known : source token) : StemsFrom source statements token
  | println {keyword semicolon : Token} (printed : PrintedIn source statements keyword semicolon) :
      StemsFrom source statements (.synthetic .identifier "println" keyword)
  | paren {keyword semicolon : Token} (printed : PrintedIn source statements keyword semicolon) :
      StemsFrom source statements (.synthetic .rightParen ")" semicolon)

variable {source : Token → Prop}

theorem PrintedIn.mono {fewer more : List Stmt} (subset : fewer ⊆ more) {keyword semicolon : Token}
    (printed : PrintedIn source fewer keyword semicolon) :
    PrintedIn source more keyword semicolon := by
  obtain ⟨value, listed⟩ := printed.listed
  exact { printed with listed := ⟨value, subset listed⟩ }

theorem Token.StemsFrom.mono {fewer more : List Stmt} (subset : fewer ⊆ more) {token : Token}
    (stems : token.StemsFrom source fewer) : token.StemsFrom source more := by
  cases stems with
  | own known => exact .own known
  | println printed => exact .println (printed.mono subset)
  | paren printed => exact .paren (printed.mono subset)

/-- A well-shaped statement whose tokens stem from the source. -/
structure Stmt.Fits (source : Token → Prop) (statement : Stmt) : Prop where
  shape : statement.wellShaped = true
  known : ∀ token ∈ statement.tokens, token.StemsFrom source (statement :: statement.inner)

/-- A statement that is no declaration and would not take what follows it for its `else`. -/
structure Stmt.Stands (source : Token → Prop) (statement : Stmt) (rest : List Token) : Prop where
  fits : statement.Fits source
  plain : statement.isDeclaration = false
  closed : statement.takesElse = true → starts (· == .keyword .elseWord) rest = false

theorem optional_fits {optional : Option Expr} (given : ∀ value ∈ optional, value.Fits source 9) :
    optional.all Expr.wellShaped = true ∧
      ∀ token ∈ optional.toList.flatMap Expr.tokens, source token := by
  cases optional with
  | none => exact ⟨rfl, by simp⟩
  | some value =>
    have fits := given value rfl
    exact ⟨fits.shape, by simpa using fits.known⟩

namespace Stmt.Fits

variable {name keyword : Token} {value condition : Expr} {optional : Option Expr}
variable {body consequent alternative : Stmt} {statements : List Stmt}

/-- The tokens of a statement inside another stem from the source with the parts of the other. -/
theorem within (fits : body.Fits source) {parts : List Stmt} (subset : body :: body.inner ⊆ parts) :
    ∀ token ∈ body.tokens, token.StemsFrom source parts :=
  fun token member => (fits.known token member).mono subset

theorem expression (fits : value.Fits source 9) : (expression value).Fits source :=
  ⟨fits.shape, fun token member => .own (fits.known token member)⟩

theorem declare (known : source name) (isName : name.kind = .identifier)
    (initial : ∀ value ∈ optional, value.Fits source 9) : (declare name optional).Fits source := by
  obtain ⟨shape, kept⟩ := optional_fits initial
  refine ⟨by simp [wellShaped, isName, shape], ?_⟩
  intro token member
  rcases List.mem_cons.1 member with rfl | later
  · exact .own known
  · exact .own (kept token later)

theorem ret (known : source keyword) (returned : ∀ value ∈ optional, value.Fits source 9) :
    (ret keyword optional).Fits source := by
  obtain ⟨shape, kept⟩ := optional_fits returned
  refine ⟨shape, ?_⟩
  intro token member
  rcases List.mem_cons.1 member with rfl | later
  · exact .own known
  · exact .own (kept token later)

/-- The tokens that a print statement makes up are those of the call it stands for. -/
theorem print {semicolon : Token} (fits : value.Fits source 9) (opens : source keyword)
    (word : keyword.kind = .identifier ∧ keyword.lexeme = "print") (closes : source semicolon)
    (mark : semicolon.kind = .semicolon) :
    (printStatement keyword value semicolon).Fits source := by
  have printed : PrintedIn source [printStatement keyword value semicolon] keyword semicolon :=
    ⟨opens, word, closes, mark, value, List.mem_cons_self⟩
  refine ⟨?_, ?_⟩
  · simp [printStatement, wellShaped, Expr.wellShaped, Expr.allWellShaped, Expr.looseness,
      Token.synthetic, fits.shape]
  · intro token member
    simp only [printStatement, tokens, Expr.tokens, Expr.allTokens, List.append_nil,
      List.singleton_append, List.mem_cons] at member
    rcases member with rfl | rfl | inside
    · exact .println printed
    · exact .paren printed
    · exact .own (fits.known token inside)

/-- What holds for statements one by one holds for them in a list. -/
theorem all (inside : ∀ statement ∈ statements, statement.Fits source) :
    allWellShaped statements = true ∧
      ∀ token ∈ allTokens statements, token.StemsFrom source (allParts statements) := by
  refine ⟨(allWellShaped_iff _).2 fun statement member => (inside statement member).shape, ?_⟩
  intro token member
  obtain ⟨statement, listed, kept⟩ := (mem_allTokens _).1 member
  exact (inside statement listed).within (parts_subset listed) token kept

theorem block (inside : ∀ statement ∈ statements, statement.Fits source) :
    (block statements).Fits source := by
  obtain ⟨shape, kept⟩ := all inside
  exact ⟨shape, fun token member => (kept token member).mono (List.subset_cons_self _ _)⟩

theorem function {parameters : List Token} (known : source name) (isName : name.kind = .identifier)
    (listed : ∀ parameter ∈ parameters, source parameter ∧ parameter.kind = .identifier)
    (inside : ∀ statement ∈ statements, statement.Fits source) :
    (function name parameters statements).Fits source := by
  obtain ⟨shape, kept⟩ := all inside
  have names : parameters.all (·.kind == .identifier) = true := by
    simpa using fun parameter member => (listed parameter member).2
  refine ⟨by simp only [wellShaped, isName, names, shape]; rfl, ?_⟩
  simp only [tokens, List.mem_cons, List.mem_append]
  rintro token (rfl | member | member)
  · exact .own known
  · exact .own (listed token member).1
  · exact (kept token member).mono (List.subset_cons_self _ _)

theorem loop (tested : condition.Fits source 9) (inside : body.Fits source)
    (plain : body.isDeclaration = false) : (loop condition body).Fits source := by
  refine ⟨by simp [wellShaped, tested.shape, inside.shape, plain], ?_⟩
  simp only [tokens, List.mem_append]
  rintro token (member | member)
  · exact .own (tested.known token member)
  · exact inside.within (List.subset_cons_self _ _) token member

theorem branch (tested : condition.Fits source 9) (inside : consequent.Fits source)
    (plain : consequent.isDeclaration = false) : (branch condition consequent none).Fits source := by
  refine ⟨by simp [wellShaped, tested.shape, inside.shape, plain], ?_⟩
  simp only [tokens, List.mem_append]
  rintro token (member | member)
  · exact .own (tested.known token member)
  · exact inside.within (List.subset_cons_self _ _) token member

theorem choice (tested : condition.Fits source 9) (inside : consequent.Fits source)
    (plain : consequent.isDeclaration = false) (nearest : consequent.takesElse = false)
    (last : alternative.Fits source) (lastPlain : alternative.isDeclaration = false) :
    (Stmt.branch condition consequent (some alternative)).Fits source := by
  refine ⟨by simp [wellShaped, tested.shape, inside.shape, plain, nearest, last.shape, lastPlain], ?_⟩
  simp only [tokens, List.mem_append]
  rintro token (member | member | member)
  · exact .own (tested.known token member)
  · refine inside.within (List.subset_cons_of_subset _ ?_) token member
    exact List.subset_append_left _ _
  · refine last.within (List.subset_cons_of_subset _ ?_) token member
    exact List.subset_append_right _ _

end Stmt.Fits

/-- All parts of the header fit. -/
structure ForHeader.Fits (source : Token → Prop) (header : ForHeader) : Prop where
  initializer : ∀ statement ∈ header.initializer, statement.Fits source
  condition : ∀ value ∈ header.condition, value.Fits source 9
  increment : ∀ value ∈ header.increment, value.Fits source 9

theorem Expr.Fits.literal (source : Token → Prop) (value : Primitive) (bound : Nat) :
    (Expr.literal value).Fits source bound :=
  ⟨rfl, Nat.zero_le _, by simp [Expr.tokens]⟩

/-- A `for` loop takes an `else` behind it only if its body does. -/
theorem ForHeader.Fits.loop {header : ForHeader} (fits : header.Fits source) {body : Stmt}
    {rest : List Token} (stands : body.Stands source rest) :
    (header.loop body).Stands source rest := by
  obtain ⟨initializer, condition, increment⟩ := header
  have tested : (condition.getD (.literal (.bool true))).Fits source 9 := by
    cases condition with
    | none => exact .literal source _ 9
    | some value => exact fits.condition value rfl
  have repeated : (ForHeader.loop ⟨none, condition, increment⟩ body).Stands source rest := by
    cases increment with
    | none => exact ⟨.loop tested stands.fits stands.plain, rfl, stands.closed⟩
    | some value =>
      have turn : (Stmt.block [body, .expression value]).Fits source :=
        .block (by simpa using ⟨stands.fits, .expression (fits.increment value rfl)⟩)
      exact ⟨.loop tested turn rfl, rfl, fun takes => by cases takes⟩
  cases initializer with
  | none => exact repeated
  | some statement =>
    refine ⟨.block ?_, rfl, fun takes => by cases takes⟩
    simpa using ⟨fits.initializer statement rfl, repeated.fits⟩

/-- Function headers with identifiers of the source for names. -/
structure FunctionHeader.Fits (source : Token → Prop) (header : FunctionHeader) : Prop where
  name : source header.name ∧ header.name.kind = .identifier
  parameters : ∀ parameter ∈ header.parameters, source parameter ∧ parameter.kind = .identifier

/-- The lists of tokens of the source, each beside itself. -/
def Course.whole {final : Token} (ends : source final) : Course final final where
  ahead tokens tokens' := tokens = tokens' ∧ ∀ token ∈ tokens, source token
  source := source
  look := by
    rintro tokens _ ⟨rfl, known⟩
    cases tokens with
    | nil => exact .inl ⟨rfl, rfl, rfl, ends⟩
    | cons first others =>
      refine .inr ⟨first, others, others, rfl, rfl, known first List.mem_cons_self, fun _ => ⟨rfl, ?_⟩⟩
      exact fun token member => known token (List.mem_cons_of_mem _ member)

/-- Whichever way the step ends, its errors stand at tokens of the source, and only such are left. -/
inductive Step.Gives (source : Token → Prop) {limit : Nat} {α : Type}
    (values : α → List Token → Prop) : Step limit α → Prop where
  | ok {value : α} {noted : List SyntaxError} {rest : List Token} {shorter : rest.length < limit}
      (fine : values value rest) (errors : ∀ error ∈ noted, source error.token)
      (left : ∀ token ∈ rest, source token) : Gives source values (.ok value noted rest shorter)
  | fail {error : SyntaxError} {noted : List SyntaxError} {rest : List Token}
      {within : rest.length ≤ limit} (stopped : source error.token)
      (errors : ∀ error ∈ noted, source error.token) (left : ∀ token ∈ rest, source token) :
      Gives source values (.fail error noted rest within)

namespace Step.Gives

variable {limit larger : Nat} {α β : Type} {step : Step limit α}
variable {values : α → List Token → Prop} {results : β → List Token → Prop}

theorem of_abreast {final : Token} {ends : source final} {allowed : SyntaxCause → Prop}
    (abreast : step.Abreast (.whole ends) allowed values step) : step.Gives source values := by
  cases abreast with
  | ok fine errors left => exact .ok fine (fun error member => (errors error member).1) left.2
  | fail stopped errors left =>
    exact .fail stopped.1 (fun error member => (errors error member).1) left.2

theorem imp {others : α → List Token → Prop} (gives : step.Gives source values)
    (implies : ∀ value rest, values value rest → others value rest) : step.Gives source others := by
  cases gives with
  | ok fine errors left => exact .ok (implies _ _ fine) errors left
  | fail stopped errors left => exact .fail stopped errors left

theorem lift (gives : step.Gives source values) (le : limit ≤ larger) :
    (step.lift le).Gives source values := by
  cases gives with
  | ok fine errors left => exact .ok fine errors left
  | fail stopped errors left => exact .fail stopped errors left

theorem carry {tokens : List Token} {taken : Taken tokens} {step : Step taken.rest.length α}
    (gives : step.Gives source values) : (taken.carry step).Gives source values :=
  gives.lift (Nat.le_of_lt taken.shorter)

theorem done {value : α} {rest : List Token} (fine : values value rest)
    (left : ∀ token ∈ rest, source token) : (Step.done value rest).Gives source values :=
  .ok fine (by simp) left

theorem bind {next : α → (rest : List Token) → rest.length < limit → Step limit β}
    (first : step.Gives source values)
    (goesOn : ∀ value rest shorter, values value rest → (∀ token ∈ rest, source token) →
      (next value rest shorter).Gives source results) : (step.bind next).Gives source results := by
  cases first with
  | fail stopped errors left => exact .fail stopped errors left
  | @ok value noted rest shorter fine errors left =>
    have later := goesOn value rest shorter fine left
    unfold Step.bind
    dsimp only
    revert later
    generalize next value rest shorter = outcome
    intro later
    cases later with
    | ok fine more left => exact .ok fine (List.forall_mem_append.2 ⟨errors, more⟩) left
    | fail stopped more left => exact .fail stopped (List.forall_mem_append.2 ⟨errors, more⟩) left

theorem map {change : α → β} (first : step.Gives source values)
    (changes : ∀ value rest, values value rest → results (change value) rest) :
    (step.map change).Gives source results :=
  first.bind fun _ _ _ fine left => .ok (changes _ _ fine) (by simp) left

theorem andThen {next : α → (rest : List Token) → Step rest.length β}
    (first : step.Gives source values)
    (goesOn : ∀ value rest, values value rest → (∀ token ∈ rest, source token) →
      (next value rest).Gives source results) : (step.andThen next).Gives source results :=
  first.bind fun _ _ _ fine left => (goesOn _ _ fine left).lift _

theorem andOptional {next : α → (rest : List Token) → Step (rest.length + 1) β}
    (first : step.Gives source values)
    (goesOn : ∀ value rest, values value rest → (∀ token ∈ rest, source token) →
      (next value rest).Gives source results) : (step.andOptional next).Gives source results :=
  first.bind fun _ _ _ fine left => (goesOn _ _ fine left).lift _

end Step.Gives

section Taking

variable {tokens : List Token} (known : ∀ token ∈ tokens, source token)
include known

theorem take?_known (wanted : TokenKind → Bool) :
    (take? wanted tokens = none ∧ starts wanted tokens = false) ∨
      ∃ token rest shorter, take? wanted tokens = some ⟨token, rest, shorter⟩ ∧
        starts wanted tokens = true ∧ wanted token.kind = true ∧ source token ∧
        ∀ other ∈ rest, source other := by
  cases tokens with
  | nil => exact .inl ⟨rfl, rfl⟩
  | cons first others =>
    simp only [take?, starts_cons]
    cases fits : wanted first.kind with
    | false => exact .inl ⟨rfl, rfl⟩
    | true =>
      refine .inr ⟨first, others, _, rfl, rfl, fits, known first List.mem_cons_self, ?_⟩
      exact fun token member => known token (List.mem_cons_of_mem _ member)

variable {final : Token} (ends : source final)
include ends

theorem current_known : source (current final tokens) := by
  cases tokens with
  | nil => exact ends
  | cons first others => exact known first List.mem_cons_self

theorem expect_known (kind : TokenKind) (what : String) :
    (expect final kind what tokens).Gives source
      (fun token _ => source token ∧ token.kind = kind) := by
  unfold expect
  obtain ⟨absent, _⟩ | ⟨token, rest, _, found, _, fits, named, left⟩ := take?_known known (· == kind)
  · rw [absent]
    exact .fail (current_known known ends) (by simp) known
  · rw [found]
    exact .ok ⟨named, by simpa using fits⟩ (by simp) left

end Taking

namespace Grammar

theorem expression_known {final : Token} (ends : source final) {tokens : List Token}
    (known : ∀ token ∈ tokens, source token) :
    (expression final tokens).Gives source (fun value _ => value.Fits source 9) := by
  let course := Course.whole ends
  have ahead : course.ahead tokens tokens := ⟨rfl, known⟩
  exact .of_abreast (expression_fits tokens ahead)

section Rules

variable {final : Token} (ends : source final) {tokens : List Token}
variable (known : ∀ token ∈ tokens, source token)
include ends known

theorem expressionBefore_fits (absent : TokenKind) :
    (expressionBefore final absent tokens).Gives source
      (fun optional _ => ∀ value ∈ optional, value.Fits source 9) := by
  unfold expressionBefore
  split
  · exact .done (by simp) known
  · exact ((expression_known ends known).map fun value _ fits => by simpa using fits).lift _

theorem initializer_fits :
    (initializer final tokens).Gives source
      (fun optional _ => ∀ value ∈ optional, value.Fits source 9) := by
  unfold initializer
  obtain ⟨absent, _⟩ | ⟨equals, rest, _, found, _, _, _, left⟩ := take?_known known (· == .assign)
  · rw [absent]
    exact .done (by simp) known
  · rw [found]
    exact ((expression_known ends left).map fun value _ fits => by simpa using fits).carry.lift _

theorem variableRule_fits :
    (variableRule final tokens).Gives source (fun statement _ => statement.Fits source) := by
  refine (expect_known known ends _ _).andOptional ?_
  intro name rest named known
  refine (initializer_fits ends known).andThen ?_
  intro value rest initial known
  exact (expect_known known ends _ _).map fun _ _ _ => .declare named.1 named.2 initial

theorem expressionRule_stands :
    (expressionRule final tokens).Gives source (Stmt.Stands source) := by
  refine (expression_known ends known).andThen ?_
  intro value rest fits known
  refine (expect_known known ends _ _).map ?_
  intro _ rest _
  exact ⟨.expression fits, rfl, fun takes => by cases takes⟩

theorem printRule_stands {keyword : Token} (opens : source keyword)
    (word : keyword.kind = .identifier ∧ keyword.lexeme = "print") :
    (printRule final keyword tokens).Gives source (Stmt.Stands source) := by
  refine (expression_known ends known).andThen ?_
  intro value rest fits known
  refine (expect_known known ends _ _).map ?_
  intro semicolon rest closes
  exact ⟨.print fits opens word closes.1 closes.2, rfl, fun takes => by cases takes⟩

theorem returnRule_stands {keyword : Token} (opens : source keyword) :
    (returnRule final keyword tokens).Gives source (Stmt.Stands source) := by
  refine (expressionBefore_fits ends known _).andThen ?_
  intro value rest returned known
  refine (expect_known known ends _ _).map ?_
  intro _ rest _
  exact ⟨.ret opens returned, rfl, fun takes => by cases takes⟩

theorem condition_fits (keyword closing : String) :
    (condition final keyword closing tokens).Gives source (fun value _ => value.Fits source 9) := by
  refine (expect_known known ends _ _).andThen ?_
  intro _ rest _ known
  refine (expression_known ends known).andThen ?_
  intro value rest fits known
  exact (expect_known known ends _ _).map fun _ _ _ => fits

theorem forInitializer_fits :
    (forInitializer final tokens).Gives source
      (fun optional _ => ∀ statement ∈ optional, statement.Fits source) := by
  unfold forInitializer
  obtain ⟨absent, _⟩ | ⟨semicolon, rest, _, found, _, _, _, left⟩ :=
    take?_known known (· == .semicolon)
  · rw [absent]
    obtain ⟨absent, _⟩ | ⟨opening, rest, _, found, _, _, _, left⟩ :=
      take?_known known (· == .keyword .varWord)
    · rw [absent]
      exact (expressionRule_stands ends known).map fun _ _ stands => by simpa using stands.fits
    · rw [found]
      exact ((variableRule_fits ends left).map fun _ _ fits => by simpa using fits).carry
  · rw [found]
    exact .ok (by simp) (by simp) left

theorem forHeader_fits :
    (forHeader final tokens).Gives source (fun header _ => header.Fits source) := by
  refine (expect_known known ends _ _).andThen ?_
  intro _ rest _ known
  refine (forInitializer_fits ends known).andOptional ?_
  intro initializer rest initial known
  refine (expressionBefore_fits ends known _).andThen ?_
  intro condition rest tested known
  refine (expect_known known ends _ _).andOptional ?_
  intro _ rest _ known
  refine (expressionBefore_fits ends known _).andThen ?_
  intro increment rest counted known
  exact (expect_known known ends _ _).map fun _ _ _ => ⟨initial, tested, counted⟩

end Rules

theorem parameterList_fits {final : Token} (ends : source final) (tokens : List Token)
    (known : ∀ token ∈ tokens, source token) :
    (parameterList final tokens).Gives source
      (fun names _ => ∀ name ∈ names, source name ∧ name.kind = .identifier) := by
  unfold parameterList
  refine (expect_known known ends _ _).bind ?_
  intro first rest shorter named known
  obtain ⟨absent, _⟩ | ⟨comma, more, smaller, found, _, _, _, left⟩ := take?_known known (· == .comma)
  · rw [absent]
    exact .ok (by simpa using named) (by simp) known
  · rw [found]
    refine ((parameterList_fits ends more left).map ?_).carry.lift _
    intro others _ listed
    simpa using ⟨named, listed⟩
termination_by tokens.length
decreasing_by omega

section Headers

variable {final : Token} (ends : source final) {tokens : List Token}
variable (known : ∀ token ∈ tokens, source token)
include ends known

theorem parameters_fits :
    (parameters final tokens).Gives source
      (fun names _ => ∀ name ∈ names, source name ∧ name.kind = .identifier) := by
  unfold parameters
  split
  · exact .done (by simp) known
  · refine ((parameterList_fits ends tokens known).bind ?_).lift _
    intro names rest shorter listed known
    have noted : SyntaxError.Noted source _ (lengthErrors .tooManyParameters names.length
        (current final rest)) := .lengthErrors rfl _ (current_known known ends)
    exact .ok listed (fun error member => (noted error member).1) known

theorem functionHeader_fits :
    (functionHeader final tokens).Gives source (fun header _ => header.Fits source) := by
  refine (expect_known known ends _ _).andThen ?_
  intro name rest named known
  refine (expect_known known ends _ _).andOptional ?_
  intro _ rest _ known
  refine (parameters_fits ends known).andThen ?_
  intro names rest listed known
  refine (expect_known known ends _ _).andThen ?_
  intro _ rest _ known
  exact (expect_known known ends _ _).map fun _ _ _ => ⟨named, listed⟩

end Headers

theorem mem_of_mem_resume {token dropped : Token} {tokens : List Token}
    (member : token ∈ resume dropped tokens) : token ∈ tokens := by
  induction tokens generalizing dropped with
  | nil => exact member
  | cons first others ih =>
    rw [resume] at member
    split at member
    · exact member
    · exact List.mem_cons_of_mem _ (ih member)

theorem mem_of_mem_recover {token : Token} {tokens : List Token} (member : token ∈ recover tokens) :
    token ∈ tokens := by
  cases tokens with
  | nil => exact member
  | cons first others => exact List.mem_cons_of_mem _ (mem_of_mem_resume member)

end Grammar

/-- All statements fit, and errors stand and end in front of tokens of the source. -/
structure Statements.Fit (source : Token → Prop) {limit : Nat} (parsed : Statements limit) : Prop where
  statements : ∀ statement ∈ parsed.statements, statement.Fits source
  errors : ∀ error ∈ parsed.errors, source error.token
  rest : ∀ token ∈ parsed.rest, source token

namespace Grammar

mutual
theorem declaration_fits {final : Token} (ends : source final) (tokens : List Token)
    (known : ∀ token ∈ tokens, source token) :
    (declaration final tokens).Gives source (fun statement _ => statement.Fits source) := by
  unfold declaration
  obtain ⟨absent, _⟩ | ⟨opening, rest, smaller, found, _, _, _, left⟩ :=
    take?_known known (· == .keyword .funWord)
  · rw [absent]
    obtain ⟨absent, _⟩ | ⟨opening, rest, _, found, _, _, _, left⟩ :=
      take?_known known (· == .keyword .varWord)
    · rw [absent]
      exact (statement_stands ends tokens known).imp fun _ _ stands => stands.fits
    · rw [found]
      exact (variableRule_fits ends left).carry
  · rw [found]
    refine (functionHeader_fits ends left).carry.bind ?_
    intro header rest shorter heads known
    refine ((block_fits ends rest known).map ?_).lift _
    intro body _ inside
    exact .function heads.name.1 heads.name.2 heads.parameters inside
termination_by tokens.length * 4 + 1
decreasing_by all_goals omega

theorem statement_stands {final : Token} (ends : source final) (tokens : List Token)
    (known : ∀ token ∈ tokens, source token) :
    (statement final tokens).Gives source (Stmt.Stands source) := by
  match tokens with
  | [] =>
    unfold statement
    exact expressionRule_stands ends known
  | first :: rest =>
    have opens : source first := known first List.mem_cons_self
    have left : ∀ token ∈ rest, source token :=
      fun token member => known token (List.mem_cons_of_mem _ member)
    unfold statement
    dsimp only
    split
    · refine ((forHeader_fits ends left).bind ?_).lift _
      intro header rest shorter heads known
      exact ((statement_stands ends rest known).map fun body _ stands => heads.loop stands).lift _
    · refine ((condition_fits ends left _ _).bind ?_).lift _
      intro condition rest shorter tested known
      refine ((statement_stands ends rest known).lift _).bind ?_
      intro consequent rest shorter stands known
      obtain ⟨absent, stop⟩ | ⟨opening, more, smaller, found, starts, _, _, left⟩ :=
        take?_known known (· == .keyword .elseWord)
      · rw [absent]
        exact .ok ⟨.branch tested stands.fits stands.plain, rfl, fun _ => stop⟩ (by simp) known
      · -- The consequent would have taken this `else`, so it takes none.
        have nearest : consequent.takesElse = false := by
          cases takes : consequent.takesElse with
          | false => rfl
          | true => rw [stands.closed takes] at starts; cases starts
        rw [found]
        refine ((statement_stands ends more left).map ?_).carry.lift _
        intro alternative _ last
        exact ⟨.choice tested stands.fits stands.plain nearest last.fits last.plain, rfl, last.closed⟩
    · exact returnRule_stands ends left opens
    · refine ((condition_fits ends left _ _).bind ?_).lift _
      intro condition rest shorter tested known
      refine ((statement_stands ends rest known).map ?_).lift _
      intro body _ stands
      exact ⟨.loop tested stands.fits stands.plain, rfl, stands.closed⟩
    · refine (block_fits ends rest left).map ?_
      intro body _ inside
      exact ⟨.block inside, rfl, fun takes => by cases takes⟩
    · split
      · next isPrint =>
        have word : first.kind = .identifier ∧ first.lexeme = "print" := by
          simp only [startsPrint, Bool.and_eq_true, beq_iff_eq] at isPrint
          exact isPrint.1
        exact (printRule_stands ends left opens word).lift _
      · exact expressionRule_stands ends known
termination_by tokens.length * 4
decreasing_by all_goals simp only [List.length_cons]; omega

theorem block_fits {final : Token} (ends : source final) (tokens : List Token)
    (known : ∀ token ∈ tokens, source token) :
    (block final tokens).Gives source
      (fun body _ => ∀ statement ∈ body, statement.Fits source) := by
  have inside := declarations_fit ends true tokens known
  have closed := expect_known inside.rest ends .rightBrace "'\x7d' after block"
  unfold block
  dsimp only
  revert closed
  generalize expect final .rightBrace "'\x7d' after block" (declarations final true tokens).rest =
    outcome
  intro closed
  cases closed with
  | ok _ noted left =>
    exact .ok inside.statements (List.forall_mem_append.2 ⟨inside.errors, noted⟩) left
  | fail stopped noted left =>
    exact .fail stopped (List.forall_mem_append.2 ⟨inside.errors, noted⟩) left
termination_by tokens.length * 4 + 3
decreasing_by omega

theorem declarations_fit {final : Token} (ends : source final) (inBlock : Bool) (tokens : List Token)
    (known : ∀ token ∈ tokens, source token) : (declarations final inBlock tokens).Fit source := by
  match tokens with
  | [] =>
    unfold declarations
    exact ⟨by simp, by simp, by simp⟩
  | first :: rest =>
    have head := declaration_fits ends (first :: rest) known
    unfold declarations
    dsimp only
    split
    · exact ⟨by simp, by simp, known⟩
    · revert head
      generalize declaration final (first :: rest) = outcome
      intro head
      cases head with
      | @ok statement noted after shorter fits errors left =>
        have smaller : after.length < rest.length + 1 := shorter
        have more := declarations_fit ends inBlock after left
        exact ⟨List.forall_mem_cons.2 ⟨fits, more.statements⟩,
          List.forall_mem_append.2 ⟨errors, more.errors⟩, more.rest⟩
      | @fail error noted after within stopped errors left =>
        have smaller : (recover after).length < rest.length + 1 :=
          length_recover_lt within (Nat.succ_pos _)
        have more := declarations_fit ends inBlock (recover after)
          fun token member => left token (mem_of_mem_recover member)
        refine ⟨more.statements, List.forall_mem_append.2 ⟨errors, ?_⟩, more.rest⟩
        exact List.forall_mem_cons.2 ⟨stopped, more.errors⟩
termination_by tokens.length * 4 + 2
decreasing_by all_goals simp only [List.length_cons]; omega
end

end Grammar

/-- All statements of a stream of items fit, over its tokens and its end token. -/
theorem parseItems_fits (items : List Item)
    (known : ∀ token ∈ (Feed.ofItems items).tokens, source token)
    (ends : source (Feed.ofItems items).final) :
    (∀ statement ∈ (parseItems items).statements, statement.Fits source) ∧
      ∀ error ∈ (parseItems items).errors, source error.token := by
  have fit := Grammar.declarations_fit ends false _ known
  exact ⟨fit.statements, fit.errors⟩

end TinyScript
