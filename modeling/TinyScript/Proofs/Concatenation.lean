import TinyScript.Proofs.Feeding
import TinyScript.Proofs.Joined
import TinyScript.Proofs.Tiling

/-! Texts one below the other. Behind a text without errors, any text is parsed to what it is parsed to
alone, with every token, syntax error and lexical error moved down by what stands above. -/
namespace TinyScript

mutual
/-- The expression with each of its tokens changed. -/
def Expr.mapTokens (change : Token → Token) : Expr → Expr
  | .literal value => .literal value
  | .grouping inner => .grouping (inner.mapTokens change)
  | .unary operator right => .unary (change operator) (right.mapTokens change)
  | .binary left operator right =>
    .binary (left.mapTokens change) (change operator) (right.mapTokens change)
  | .logical left operator right =>
    .logical (left.mapTokens change) (change operator) (right.mapTokens change)
  | .var name => .var (change name)
  | .assign name value => .assign (change name) (value.mapTokens change)
  | .call callee paren arguments =>
    .call (callee.mapTokens change) (change paren) (Expr.mapAllTokens change arguments)
  | .increment name sign => .increment (change name) (change sign)

def Expr.mapAllTokens (change : Token → Token) : List Expr → List Expr
  | [] => []
  | first :: others => first.mapTokens change :: Expr.mapAllTokens change others
end

mutual
/-- The statement with each of its tokens changed. -/
def Stmt.mapTokens (change : Token → Token) : Stmt → Stmt
  | .expression value => .expression (value.mapTokens change)
  | .declare name initializer => .declare (change name) (initializer.map (Expr.mapTokens change))
  | .block statements => .block (Stmt.mapAllTokens change statements)
  | .branch condition consequent (some alternative) =>
    .branch (condition.mapTokens change) (consequent.mapTokens change)
      (some (alternative.mapTokens change))
  | .branch condition consequent none =>
    .branch (condition.mapTokens change) (consequent.mapTokens change) none
  | .loop condition body => .loop (condition.mapTokens change) (body.mapTokens change)
  | .function name parameters body =>
    .function (change name) (parameters.map change) (Stmt.mapAllTokens change body)
  | .ret keyword value => .ret (change keyword) (value.map (Expr.mapTokens change))

def Stmt.mapAllTokens (change : Token → Token) : List Stmt → List Stmt
  | [] => []
  | first :: others => first.mapTokens change :: Stmt.mapAllTokens change others
end

/-- Tokens are like each other only if the change leads from the one to the other. -/
structure Likeness.Maps (like : Likeness) (change : Token → Token) : Prop where
  names {name other : Token} : like.names name other → other = change name
  marks {mark other : Token} : like.marks mark other → other = change mark

namespace Likeness.Maps

variable {like : Likeness} {change : Token → Token}

mutual
theorem expr (maps : like.Maps change) :
    (value other : Expr) → value.Like like other → other = value.mapTokens change
  | .literal _, _, .literal _ => rfl
  | .grouping inner, _, .grouping same => by rw [Expr.mapTokens, maps.expr inner _ same]
  | .unary _ right, _, .unary mark same => by
    rw [Expr.mapTokens, maps.marks mark, maps.expr right _ same]
  | .binary left _ right, _, .binary first mark second => by
    rw [Expr.mapTokens, maps.expr left _ first, maps.marks mark, maps.expr right _ second]
  | .logical left _ right, _, .logical first mark second => by
    rw [Expr.mapTokens, maps.expr left _ first, maps.marks mark, maps.expr right _ second]
  | .var _, _, .var named => by rw [Expr.mapTokens, maps.names named]
  | .assign _ value, _, .assign named same => by
    rw [Expr.mapTokens, maps.names named, maps.expr value _ same]
  | .call callee _ arguments, _, .call called mark given => by
    rw [Expr.mapTokens, maps.expr callee _ called, maps.marks mark, maps.exprs arguments _ given]
  | .increment _ _, _, .increment named mark => by
    rw [Expr.mapTokens, maps.names named, maps.marks mark]

theorem exprs (maps : like.Maps change) : (values others : List Expr) →
    List.Forall₂ (Expr.Like like) values others → others = Expr.mapAllTokens change values
  | [], _, .nil => rfl
  | first :: rest, _, .cons same more => by
    rw [Expr.mapAllTokens, maps.expr first _ same, maps.exprs rest _ more]
end

theorem optional (maps : like.Maps change) {value other : Option Expr}
    (same : Option.Rel (Expr.Like like) value other) :
    other = value.map (Expr.mapTokens change) := by
  cases same with
  | some same => rw [Option.map_some, maps.expr _ _ same]
  | none => rfl

theorem tokens (maps : like.Maps change) {tokens others : List Token}
    (same : List.Forall₂ like.names tokens others) :
    others = tokens.map change := by
  induction same with
  | nil => rfl
  | cons named _ ih => rw [List.map_cons, maps.names named, ih]

mutual
theorem stmt (maps : like.Maps change) :
    (statement other : Stmt) → statement.Like like other → other = statement.mapTokens change
  | .expression _, _, .expression same => by rw [Stmt.mapTokens, maps.expr _ _ same]
  | .declare _ _, _, .declare named same => by
    rw [Stmt.mapTokens, maps.names named, maps.optional same]
  | .block statements, _, .block same => by rw [Stmt.mapTokens, maps.stmts statements _ same]
  | .branch _ consequent (some alternative), _, .branch tested same (.some otherwise) => by
    rw [Stmt.mapTokens, maps.expr _ _ tested, maps.stmt consequent _ same,
      maps.stmt alternative _ otherwise]
  | .branch _ consequent none, _, .branch tested same .none => by
    rw [Stmt.mapTokens, maps.expr _ _ tested, maps.stmt consequent _ same]
  | .loop _ body, _, .loop tested same => by
    rw [Stmt.mapTokens, maps.expr _ _ tested, maps.stmt body _ same]
  | .function _ _ body, _, .function named given same => by
    rw [Stmt.mapTokens, maps.names named, maps.tokens given, maps.stmts body _ same]
  | .ret _ _, _, .ret mark same => by rw [Stmt.mapTokens, maps.marks mark, maps.optional same]

theorem stmts (maps : like.Maps change) : (statements others : List Stmt) →
    List.Forall₂ (Stmt.Like like) statements others → others = Stmt.mapAllTokens change statements
  | [], _, .nil => rfl
  | first :: rest, _, .cons same more => by
    rw [Stmt.mapAllTokens, maps.stmt first _ same, maps.stmts rest _ more]
end

end Likeness.Maps

theorem Stmt.mapAllTokens_eq_map (change : Token → Token) (statements : List Stmt) :
    Stmt.mapAllTokens change statements = statements.map (Stmt.mapTokens change) := by
  induction statements with
  | nil => rfl
  | cons first others ih => rw [Stmt.mapAllTokens, List.map_cons, ih]

/-- The statement so many bytes and lines further down. -/
def Stmt.moved (bytes lines : Nat) : Stmt → Stmt := Stmt.mapTokens (Token.moved bytes lines)

def SyntaxError.moved (bytes lines : Nat) (error : SyntaxError) : SyntaxError :=
  { error with token := error.token.moved bytes lines }

/-- The program and its errors so many bytes and lines further down. -/
def Parsed.moved (bytes lines : Nat) (parsed : Parsed) : Parsed where
  statements := parsed.statements.map (Stmt.moved bytes lines)
  errors := parsed.errors.map (SyntaxError.moved bytes lines)
  lexicalErrors := parsed.lexicalErrors.map (LexicalError.moved bytes lines)

/-- Tokens and the same tokens further down. -/
def Correspondence.moved (bytes lines : Nat) : Correspondence where
  tokens token other := other = token.moved bytes lines
  kind_eq same := by rw [same]; rfl
  lexeme_eq same := by rw [same]; rfl
  literal_eq same := by rw [same]; rfl
  synthetic kind lexeme same := by rw [same]; rfl

theorem Correspondence.moved_maps (bytes lines : Nat) :
    (moved bytes lines).likeness.Maps (Token.moved bytes lines) :=
  ⟨id, id⟩

theorem eq_moved_of_like {bytes lines : Nat} {errors others : List SyntaxError}
    (alike : List.Forall₂ (SyntaxError.Like (.moved bytes lines)) errors others) :
    others = errors.map (SyntaxError.moved bytes lines) := by
  induction alike with
  | nil => rfl
  | @cons error other _ _ same _ ih =>
    obtain ⟨cause, token⟩ := error
    obtain ⟨cause', token'⟩ := other
    obtain ⟨rfl, rfl⟩ : cause = cause' ∧ token' = token.moved bytes lines :=
      ⟨same.cause, same.token⟩
    rw [List.map_cons, ih]
    rfl

/-- The tokens of a text are those that are parsed, and the end token behind them. -/
theorem scanTokens_eq_feed (source : String) :
    scanTokens source = (Feed.ofItems (scan source)).tokens ++
      (Feed.ofItems (scan source)).final?.toList := by
  have counted := (Feed.ofItems_upToEnd (scan source)).1
  rwa [Item.tokensUpToEnd, Item.upToEnd_scan] at counted

theorem not_starts_else {source : String}
    (noElse : ∀ token ∈ (scanTokens source).head?, token.kind ≠ .keyword .elseWord) :
    starts (· == .keyword .elseWord) (Feed.ofItems (scan source)).tokens = false := by
  rw [scanTokens_eq_feed] at noElse
  cases tokens : (Feed.ofItems (scan source)).tokens with
  | nil => rfl
  | cons first others =>
    have other := noElse first (by simp [tokens])
    simpa using other

theorem Item.line_moved (bytes lines : Nat) (item : Item) :
    (item.moved bytes lines).line = item.line + UInt32.ofNat lines := by
  cases item <;> rfl

/-- Below four gigabytes, adding the lines above to those of an item stays within 32 bits. -/
theorem Item.toNat_line_moved {first second : String}
    (short : (first ++ "\n" ++ second).utf8ByteSize < 2 ^ 32)
    (other : (first ++ "\n" ++ second).toList ≠ List.replicate (2 ^ 32 - 1) '\n') {item : Item}
    (member : item ∈ scan second) (bytes : Nat) :
    (item.moved bytes (first.toList.count '\n' + 1)).line.toNat =
      item.line.toNat + (first.toList.count '\n' + 1) := by
  obtain ⟨before, after, shape, _, line⟩ := placedIn_of_mem_scan member
  have size : utf8Size (first ++ "\n" ++ second).toList < 2 ^ 32 := by
    rwa [← utf8ByteSize_ofList, String.ofList_toList]
  have all := newlines_lt size other
  have newline : "\n".toList = ['\n'] := rfl
  have width : UInt32.size = 2 ^ 32 := rfl
  simp only [shape, newline, String.toList_append, List.count_append, List.count_singleton_self] at all
  rw [line_moved, line, String.toList_append, List.count_append, UInt32.toNat_add,
    UInt32.toNat_ofNat_of_lt' (by omega), UInt32.toNat_ofNat_of_lt' (by omega),
    Nat.mod_eq_of_lt (by omega)]

/-- A text below a text without errors is parsed as it is alone, unless it starts with `else`: the
statements of the first come first, and those of the second follow with all errors of the second,
moved by the length of the first and its lines, the newline between them counted. Lines are added in
32 bits, which is enough below four gigabytes for all but a text of newlines, and that has no errors. -/
theorem parse_below {first second : String} (clean : (parse first).hasErrors = false)
    (noElse : ∀ token ∈ (scanTokens second).head?, token.kind ≠ .keyword .elseWord) :
    let bytes := first.utf8ByteSize + 1
    let lines := first.toList.count '\n' + 1
    let below := (parse second).moved bytes lines
    parse (first ++ "\n" ++ second) =
        { below with statements := (parse first).statements ++ below.statements } ∧
      ((first ++ "\n" ++ second).utf8ByteSize < 2 ^ 32 →
        (first ++ "\n" ++ second).toList ≠ List.replicate (2 ^ 32 - 1) '\n' →
          ∀ item ∈ scan second, (item.moved bytes lines).line.toNat = item.line.toNat + lines) := by
  intro bytes lines below
  obtain ⟨statements, errors, joined, alike, noted⟩ := parse_joined
    (.moved bytes lines) clean (fun _ => rfl) (not_starts_else noElse)
  rw [(Correspondence.moved_maps _ _).stmts _ _ alike, Stmt.mapAllTokens_eq_map,
    eq_moved_of_like noted] at joined
  exact ⟨joined, fun short other item member => Item.toNat_line_moved short other member bytes⟩

private def upper : String := "if (a) b; // é\n"

private def lower : String := "\x7d c = ; @ d 1"

/-- Below a branch and a comment, a text with two syntax errors and a malformed character, all of them
on the third line and behind the two bytes of `é`. -/
theorem errors_below_comment :
    (parse upper).hasErrors = false ∧
      (∀ token ∈ (scanTokens lower).head?, token.kind ≠ .keyword .elseWord) ∧
      (parse (upper ++ "\n" ++ lower)).statements.length = 1 ∧
      (parse (upper ++ "\n" ++ lower)).errors.map (fun error => (error.token.line, error.token.span)) =
        [(3, ⟨17, 18⟩), (3, ⟨29, 30⟩)] ∧
      (parse (upper ++ "\n" ++ lower)).lexicalErrors.map LexicalError.span = [⟨25, 26⟩] ∧
      ∀ item ∈ scan lower, (item.moved 17 2).line.toNat = item.line.toNat + 2 := by
  have clean : (parse upper).hasErrors = false := by decide +kernel
  have noElse : ∀ token ∈ (scanTokens lower).head?, token.kind ≠ .keyword .elseWord := by
    decide +kernel
  have short : (upper ++ "\n" ++ lower).utf8ByteSize < 2 ^ 32 := by decide +kernel
  have other : (upper ++ "\n" ++ lower).toList ≠ List.replicate (2 ^ 32 - 1) '\n' :=
    ne_replicate_of_length_lt (by decide +kernel)
  obtain ⟨parsed, lines⟩ := parse_below clean noElse
  rw [parsed]
  exact ⟨clean, noElse, by cbv, by cbv, by cbv, lines short other⟩

end TinyScript
