import TinyScript.Proofs.PhraseSound
import TinyScript.Proofs.Scanned

/-! The trees that scanned tokens are parsed to are canonical. -/
namespace TinyScript

open Phrase

/-- Kinds of tokens that are always spelled in the same way. -/
def TokenKind.isFixed : TokenKind → Bool
  | identifier | number | string | bytes | endOfInput | illegal => false
  | _ => true

namespace Token.Scanned

variable {token : Token}

theorem spelled (scanned : token.Scanned) (fixed : token.kind.isFixed = true) : token.Spelled := by
  unfold Token.Scanned at scanned
  split at scanned
  case h_7 => exact scanned
  all_goals simp_all [TokenKind.isFixed]

theorem named (scanned : token.Scanned) (isName : token.kind = .identifier) : token.Named := by
  rw [Token.Scanned, isName] at scanned
  exact scanned

/-- A single token stands for a name or for a value that can be written down. -/
theorem canonical_ofAtom (scanned : token.Scanned) (atomic : isAtom token.kind = true) :
    (Expr.ofAtom token).Canonical .primary := by
  unfold isAtom at atomic
  split at atomic
  case h_8 => cases atomic
  case h_7 isName =>
    rw [Expr.ofAtom, isName]
    exact .var (scanned.named isName)
  case h_4 isNumber =>
    rw [Token.Scanned, isNumber] at scanned
    obtain ⟨value, found, unsigned⟩ := scanned
    simp only [Expr.ofAtom, isNumber, Primitive.ofToken, found, Primitive.ofLiteral]
    exact .literal unsigned
  case h_5 isString =>
    rw [Token.Scanned, isString] at scanned
    obtain ⟨value, found, unquoted⟩ := scanned
    simp only [Expr.ofAtom, isString, Primitive.ofToken, found, Primitive.ofLiteral]
    exact .literal unquoted
  case h_6 isBytes =>
    rw [Token.Scanned, isBytes] at scanned
    obtain ⟨value, found⟩ := scanned
    simp only [Expr.ofAtom, isBytes, Primitive.ofToken, found, Primitive.ofLiteral]
    exact .literal trivial
  all_goals
    next kind =>
      simp only [Expr.ofAtom, kind]
      exact .literal trivial

end Token.Scanned

theorem mem_separated {token : Token} {list : List Token} {lists : List (List Token)}
    (commas : List Token) (member : list ∈ lists) (inside : token ∈ list) :
    token ∈ separated lists commas := by
  induction lists generalizing commas with
  | nil => cases member
  | cons first others ih =>
    rcases List.mem_cons.1 member with rfl | later
    · obtain ⟨tail, shape⟩ := separated_cons list others commas
      simp [shape, inside]
    · cases others with
      | nil => cases later
      | cons second others =>
        cases commas with
        | nil => simp [separated, ih [] later]
        | cons comma commas => simp [separated, ih commas later]

theorem Phrase.Derives.canonical {tier : Tier} {phrase : Phrase}
    (derives : Derives IsName tier phrase) (scanned : ∀ token ∈ phrase.tokens, token.Scanned) :
    phrase.expr.Canonical tier := by
  induction derives with
  | chained _ ih => exact .chained (ih scanned)
  | operand _ ih => exact .operand (ih scanned)
  | unsigned _ ih => exact .unsigned (ih scanned)
  | uncalled _ ih => exact .uncalled (ih scanned)
  | uncounted _ ih => exact .uncounted (ih scanned)
  | @assigned name equals value isName _ _ ih =>
    exact .assign ((scanned name (by simp [Phrase.tokens])).named isName)
      (ih fun token member => scanned token (by simp [Phrase.tokens, member]))
  | @joined level left right operator joins _ _ ihLeft ihRight =>
    have fixed : operator.kind.isFixed = true := by
      cases level <;> cases kind : operator.kind <;> simp_all [Level.joins, TokenKind.isFixed]
    rw [expr, ← Level.join_eq_joined joins]
    exact .join joins ((scanned operator (by simp [Phrase.tokens])).spelled fixed)
      (ihLeft fun token member => scanned token (by simp [Phrase.tokens, member]))
      (ihRight fun token member => scanned token (by simp [Phrase.tokens, member]))
  | @signed operator right sign _ ih =>
    have fixed : operator.kind.isFixed = true := by
      cases kind : operator.kind <;> simp_all [isSign, TokenKind.isFixed]
    exact .unary sign ((scanned operator (by simp [Phrase.tokens])).spelled fixed)
      (ih fun token member => scanned token (by simp [Phrase.tokens, member]))
  | @call callee opening closing arguments commas _ _ _ _ _ short isClosing ihCallee ihValues =>
    refine .call (ihCallee fun token member => scanned token (by simp [Phrase.tokens, member]))
      isClosing ((scanned closing (by simp [Phrase.tokens])).spelled (by rw [isClosing]; rfl)) ?_
      (by simpa [exprs_eq_map] using short)
    rw [exprs_eq_map]
    intro value member
    obtain ⟨argument, listed, rfl⟩ := List.mem_map.1 member
    refine ihValues argument listed fun token inside => scanned token ?_
    have found : token ∈ separated (tokenLists arguments) commas := by
      rw [tokenLists_eq_map]
      exact mem_separated commas (List.mem_map.2 ⟨argument, listed, rfl⟩) inside
    simp [Phrase.tokens, found]
  | @counted target sign _ counts isCount =>
    obtain ⟨name, rfl, isName, same⟩ := expr_counted sign counts
    have fixed : sign.kind.isFixed = true := by
      cases kind : sign.kind <;> simp_all [isIncrement, TokenKind.isFixed]
    rw [same]
    exact .increment ((scanned name (by simp [Phrase.tokens])).named isName) isCount
      ((scanned sign (by simp [Phrase.tokens])).spelled fixed)
  | @atom token atomic => exact (scanned token (by simp [Phrase.tokens])).canonical_ofAtom atomic
  | @group opening closing inner _ _ _ ih =>
    exact .grouping (ih fun token member => scanned token (by simp [Phrase.tokens, member]))

theorem optional_canonical {phrase : Option Phrase}
    (derives : ∀ present, phrase = some present → Derives IsName .assignment present)
    (scanned : ∀ token ∈ optionalTokens phrase, token.Scanned) :
    ∀ value, phrase.map expr = some value → value.Canonical .assignment := by
  intro value found
  obtain ⟨present, rfl, rfl⟩ := Option.map_eq_some_iff.1 found
  exact (derives present rfl).canonical scanned

theorem VariableTree.Derives.canonical {tree : VariableTree} (derives : tree.Derives IsName)
    (scanned : ∀ token ∈ tree.tokens, token.Scanned) : tree.stmt.Canonical .declaration := by
  obtain ⟨keyword, name, initial, semicolon⟩ := tree
  refine .declare ((scanned name (by simp [VariableTree.tokens])).named derives.isName) ?_
  intro value found
  obtain ⟨⟨equals, phrase⟩, rfl, rfl⟩ := Option.map_eq_some_iff.1 found
  refine (derives.initial equals phrase rfl).2.canonical fun token member => scanned token ?_
  simp [VariableTree.tokens, member]

theorem ForStart.Derives.canonical {start : ForStart} (derives : start.Derives IsName)
    (scanned : ∀ token ∈ start.tokens, token.Scanned) :
    ∀ statement, start.stmt? = some statement → statement.Canonical .declaration := by
  intro statement found
  cases derives with
  | absent => cases found
  | declare declares =>
    cases found
    exact declares.canonical scanned
  | expression evaluates =>
    cases found
    exact .statement (.expression (evaluates.canonical fun token member =>
      scanned token (by simp [ForStart.tokens, member])))

/-- A header with canonical parts makes a canonical loop. -/
theorem ForHeader.canonical_loop {header : ForHeader} {body : Stmt}
    (initial : ∀ statement, header.initializer = some statement → statement.Canonical .declaration)
    (tested : ∀ value, header.condition = some value → value.Canonical .assignment)
    (advanced : ∀ value, header.increment = some value → value.Canonical .assignment)
    (inner : body.Canonical .statement) : (header.loop body).Canonical .statement := by
  obtain ⟨initializer, condition, increment⟩ := header
  have turned {turn : Stmt} (canonical : turn.Canonical .statement) :
      (Stmt.loop (condition.getD (.literal (.bool true))) turn).Canonical .statement := by
    refine .loop ?_ canonical
    cases condition with
    | none => exact .of_primary (.literal trivial)
    | some value => exact tested value rfl
  have repeated : (ForHeader.loop ⟨none, condition, increment⟩ body).Canonical .statement := by
    cases increment with
    | none => exact turned inner
    | some value =>
      refine turned (.block ?_)
      simpa using ⟨.statement inner, .statement (.expression (advanced value rfl))⟩
  cases initializer with
  | none => exact repeated
  | some statement =>
    refine .block ?_
    simpa using ⟨initial statement rfl, .statement repeated⟩

theorem ForTree.Derives.canonical_loop {tree : ForTree} (derives : tree.Derives IsName)
    (scanned : ∀ token ∈ tree.tokens, token.Scanned) {body : Stmt}
    (inner : body.Canonical .statement) : (tree.header.loop body).Canonical .statement := by
  refine ForHeader.canonical_loop ?_ ?_ ?_ inner
  · exact derives.begins.canonical fun token member =>
      scanned token (by simp [ForTree.tokens, member])
  · exact optional_canonical derives.condition fun token member =>
      scanned token (by simp [ForTree.tokens, member])
  · exact optional_canonical derives.increment fun token member =>
      scanned token (by simp [ForTree.tokens, member])

theorem ConditionTree.Derives.canonical {word : Keyword} {tree : ConditionTree}
    (derives : tree.Derives IsName word) (scanned : ∀ token ∈ tree.tokens, token.Scanned) :
    tree.value.expr.Canonical .assignment :=
  derives.condition.canonical fun token member =>
    scanned token (by simp [ConditionTree.tokens, member])

theorem FunctionTree.Derives.canonical {tree : FunctionTree} (derives : tree.Derives)
    (scanned : ∀ token ∈ tree.tokens, token.Scanned) :
    tree.name.Named ∧ ∀ parameter ∈ tree.parameters, parameter.Named := by
  refine ⟨(scanned tree.name (by simp [FunctionTree.tokens])).named derives.isName, ?_⟩
  intro parameter member
  have found : parameter ∈ separated (tree.parameters.map ([·])) tree.commas :=
    mem_separated tree.commas (List.mem_map.2 ⟨parameter, member, rfl⟩) (by simp)
  exact (scanned parameter (by simp [FunctionTree.tokens, found])).named
    (derives.names parameter member)

/-- A print statement is a call of another name. -/
theorem canonical_printStatement {value : Expr} (canonical : value.Canonical .assignment)
    (keyword semicolon : Token) :
    (printStatement keyword value semicolon).Canonical .statement := by
  have named : (Token.synthetic .identifier "println" keyword).Named :=
    ⟨rfl, show isNameText "println" = true by decide, rfl⟩
  refine .expression (.of_call (.call (.uncalled (.uncounted (.var named))) rfl ⟨rfl, rfl⟩ ?_
    (show 1 < listLimit by decide)))
  simpa using canonical

namespace Sentence

theorem mem_allTokens {token : Token} {sentence : Sentence} {body : List Sentence}
    (member : sentence ∈ body) (inside : token ∈ sentence.tokens) : token ∈ allTokens body := by
  induction body with
  | nil => cases member
  | cons first others ih =>
    rcases List.mem_cons.1 member with rfl | later
    · simp [allTokens, inside]
    · simp [allTokens, ih later]

theorem stmts_eq_map (body : List Sentence) : stmts body = body.map stmt := by
  induction body with
  | nil => rfl
  | cons first others ih => simp [stmts, ih]

/-- No statement ends in an `if` without `else` unless its sentence does. -/
theorem takesElse_stmt {counter : Phrase → Prop} {printing : Bool} {slot : Slot}
    {sentence : Sentence} (derives : sentence.Derives counter printing slot)
    (closed : sentence.takesElse = false) : sentence.stmt.takesElse = false := by
  induction derives with
  | statement _ ih => exact ih closed
  | branch => cases closed
  | choice _ _ _ _ _ _ ih => exact ih closed
  | loop _ _ ih => exact ih closed
  | @forLoop head body _ _ ih =>
    obtain ⟨_, _, start, condition, _, increment, _⟩ := head
    cases start with
    | absent =>
      cases increment with
      | none => exact ih closed
      | some value => rfl
    | _ => rfl
  | _ => rfl

theorem Derives.canonical {printing : Bool} {slot : Slot} {sentence : Sentence}
    (derives : sentence.Derives IsName printing slot)
    (scanned : ∀ token ∈ sentence.tokens, token.Scanned) : sentence.stmt.Canonical slot := by
  induction derives with
  | statement _ ih => exact .statement (ih scanned)
  | declare declares => exact declares.canonical scanned
  | @function head body closing heads _ _ ih =>
    obtain ⟨named, names⟩ := heads.canonical fun token member =>
      scanned token (by simp [tokens, member])
    refine .function named names heads.short ?_
    rw [stmts_eq_map]
    intro statement member
    obtain ⟨sentence, listed, rfl⟩ := List.mem_map.1 member
    exact ih sentence listed fun token inside =>
      scanned token (by simp [tokens, mem_allTokens listed inside])
  | expression evaluates =>
    exact .expression (evaluates.canonical fun token member =>
      scanned token (by simp [tokens, member]))
  | print evaluates =>
    exact canonical_printStatement (evaluates.canonical fun token member =>
      scanned token (by simp [tokens, member])) _ _
  | @ret keyword semicolon value isReturn evaluates =>
    exact .ret isReturn ((scanned keyword (by simp [tokens])).spelled (by rw [isReturn]; rfl))
      (optional_canonical evaluates fun token member => scanned token (by simp [tokens, member]))
  | @block opening closing body _ _ _ ih =>
    refine .block ?_
    rw [stmts_eq_map]
    intro statement member
    obtain ⟨sentence, listed, rfl⟩ := List.mem_map.1 member
    exact ih sentence listed fun token inside =>
      scanned token (by simp [tokens, mem_allTokens listed inside])
  | branch heads _ ih =>
    exact .branch (heads.canonical fun token member => scanned token (by simp [tokens, member]))
      (ih fun token member => scanned token (by simp [tokens, member]))
  | choice heads inner nearest _ _ ih ihLast =>
    exact .choice (heads.canonical fun token member => scanned token (by simp [tokens, member]))
      (ih fun token member => scanned token (by simp [tokens, member]))
      (takesElse_stmt inner nearest)
      (ihLast fun token member => scanned token (by simp [tokens, member]))
  | loop heads _ ih =>
    exact .loop (heads.canonical fun token member => scanned token (by simp [tokens, member]))
      (ih fun token member => scanned token (by simp [tokens, member]))
  | forLoop heads _ ih =>
    exact heads.canonical_loop (fun token member => scanned token (by simp [tokens, member]))
      (ih fun token member => scanned token (by simp [tokens, member]))

end Sentence

end TinyScript
