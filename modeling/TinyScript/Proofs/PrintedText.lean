import TinyScript.Proofs.Canonical

/-! The text of a canonical tree is cut into the tokens of that tree. -/
namespace TinyScript

/-- In front of anything that breaks words, the text is read as these tokens. -/
def WrittenAs (text : String) (tokens : List Token) : Prop :=
  ∀ rest more, Breaks rest → Scans rest more → Scans (text.toList ++ rest) (tokens ++ more)

namespace WrittenAs

/-- Entries with commas between them. -/
theorem listed {α : Type} {entries : List α} {text : α → String} {tokens : α → List Token}
    (each : ∀ entry ∈ entries, WrittenAs (text entry) (tokens entry)) :
    WrittenAs (String.intercalate ", " (entries.map text)) (listed (entries.map tokens)) := by
  induction entries with
  | nil =>
    intro rest more _ scans
    simpa [TinyScript.listed] using scans
  | cons first others ih =>
    intro rest more breaks scans
    have front := each first (by simp)
    cases others with
    | nil => simpa [TinyScript.listed] using front rest more breaks scans
    | cons second others =>
      have later := ih (fun entry member => each entry (by simp [member])) rest more breaks scans
      have comma := (later.spacing (c := ' ') rfl).closed .comma rfl
      have whole := front (',' :: ' ' :: _) _ rfl comma
      simpa [TinyScript.listed, String.intercalate_cons_cons, TokenKind.description] using whole

/-- Entries with spacing between them. -/
theorem spaced {α : Type} {entries : List α} {text : α → String} {tokens : α → List Token}
    {c : Char} (isSpacing : Scanner.isSpacing c = true)
    (each : ∀ entry ∈ entries, WrittenAs (text entry) (tokens entry)) :
    WrittenAs (String.intercalate (String.singleton c) (entries.map text))
      (entries.flatMap tokens) := by
  have breaks (rest : List Char) : Breaks (c :: rest) := by
    simp only [Scanner.isSpacing, Bool.or_eq_true, beq_iff_eq] at isSpacing
    rcases isSpacing with ((rfl | rfl) | rfl) | rfl <;> rfl
  induction entries with
  | nil =>
    intro rest more _ scans
    simpa using scans
  | cons first others ih =>
    intro rest more ends scans
    have front := each first (by simp)
    cases others with
    | nil => simpa using front rest more ends scans
    | cons second others =>
      have later := ih (fun entry member => each entry (by simp [member])) rest more ends scans
      have whole := front _ _ (breaks _) (later.spacing isSpacing)
      simpa [String.intercalate_cons_cons] using whole

end WrittenAs

theorem Level.standsApart_of_joins {level : Level} {kind : TokenKind}
    (joins : level.joins kind = true) : kind.standsApart = true := by
  cases kind with
  | keyword word => rfl
  | _ => cases level <;> simp_all [Level.joins, TokenKind.standsApart]

theorem Level.text_join (level : Level) (left right : Expr) (operator : Token) :
    (level.join left operator right).text =
      left.text ++ " " ++ operator.lexeme ++ " " ++ right.text := by
  cases level <;> simp only [Level.join, Expr.text]

theorem Expr.texts_eq_map (values : List Expr) : Expr.texts values = values.map Expr.text := by
  induction values with
  | nil => rfl
  | cons first others ih => simp [Expr.texts, ih]

theorem Expr.printeds_eq_map (values : List Expr) :
    Expr.printeds values = values.map Expr.printed := by
  induction values with
  | nil => rfl
  | cons first others ih => simp [Expr.printeds, ih]

theorem Token.Named.writtenAs {token : Token} (named : token.Named) :
    WrittenAs token.lexeme [token.bare] := by
  intro rest more breaks scans
  rw [named.bare_eq]
  exact scans.name named.lexeme breaks

theorem Primitive.text_int {value : Int64} (unsigned : 0 ≤ value) :
    (Primitive.int value).text = toString value.toNatClampNeg := by
  have whole : value.toInt = (value.toNatClampNeg : Int) := Int64.toInt_eq_toNatClampNeg unsigned
  rw [Primitive.text, whole]
  rfl

theorem Primitive.writtenAs {value : Primitive} (writable : value.Writable) :
    WrittenAs value.text [value.token] := by
  intro rest more breaks scans
  cases value with
  | nil => exact scans.keyword .nilWord breaks
  | bool value =>
    cases value with
    | true => exact scans.keyword .trueWord breaks
    | false => exact scans.keyword .falseWord breaks
  | int value =>
    have small : value.toNatClampNeg ≤ largestInt := Nat.le_of_lt_succ value.toNatClampNeg_lt
    have scanned := scans.numeral small breaks
    rw [Int64.ofNat_toNatClampNeg value writable, ← Primitive.text_int writable] at scanned
    exact scanned
  | string value =>
    have scanned := scans.string writable
    simpa [Primitive.text, Primitive.token] using scanned
  | bytes value =>
    have scanned := scans.bytes value
    simpa [Primitive.text, Primitive.token, Text.hexOfBytes] using scanned

/-- Whether a sign in front of the text stays a token of its own. -/
def NoOperator (text : String) : Prop :=
  ∃ c more, text.toList = c :: more ∧ c ≠ '=' ∧ c ≠ '-'

theorem NoOperator.append {text : String} (plain : NoOperator text) (more : String) :
    NoOperator (text ++ more) := by
  obtain ⟨c, others, shape, differs⟩ := plain
  exact ⟨c, others ++ more.toList, by simp [shape], differs⟩

theorem Token.Named.noOperator {token : Token} (named : token.Named) : NoOperator token.lexeme := by
  have isWord := named.lexeme
  simp only [isNameText, Bool.and_eq_true] at isWord
  cases shape : token.lexeme.toList with
  | nil => simp [shape, Lexeme.isWord] at isWord
  | cons first others =>
    have letter : Lexeme.isLetter first = true := by
      simp only [shape, Lexeme.isWord, Bool.and_eq_true] at isWord
      exact isWord.1.1
    refine ⟨first, others, shape, ?_, ?_⟩
    · rintro rfl
      exact absurd letter (by decide)
    · rintro rfl
      exact absurd letter (by decide)

theorem Primitive.noOperator {value : Primitive} (writable : value.Writable) :
    NoOperator value.text := by
  cases value with
  | nil => exact ⟨'n', _, rfl, by decide, by decide⟩
  | bool value =>
    cases value with
    | true => exact ⟨'t', _, rfl, by decide, by decide⟩
    | false => exact ⟨'f', _, rfl, by decide, by decide⟩
  | int value =>
    have digits : (toString value.toNatClampNeg).toList = Nat.toDigits 10 value.toNatClampNeg :=
      Nat.toList_repr
    rw [Primitive.text_int writable]
    cases shape : Nat.toDigits 10 value.toNatClampNeg with
    | nil => exact absurd shape Nat.toDigits_ne_nil
    | cons first others =>
      have digit : Text.isDecimalDigit first = true :=
        Text.isDecimalDigit_of_mem_toDigits (n := value.toNatClampNeg) (by simp [shape])
      refine ⟨first, others, digits.trans shape, ?_, ?_⟩
      · rintro rfl
        exact absurd digit (by decide)
      · rintro rfl
        exact absurd digit (by decide)
  | string value => exact ⟨'"', value.toList ++ ['"'], by simp [Primitive.text], by decide, by decide⟩
  | bytes value =>
    exact ⟨'\'', Text.encodeBytes value ++ ['\''], by simp [Primitive.text, Text.hexOfBytes],
      by decide, by decide⟩

/-- An expression without a sign in front of it. -/
theorem Expr.Canonical.noOperator {tier : Tier} {value : Expr} (canonical : value.Canonical tier)
    (tight : tier.opensWith .minus = false) : NoOperator value.text := by
  induction canonical with
  | assign | chained | unary | unsigned => exact absurd tight (by decide)
  | @join level | @operand level => cases level <;> exact absurd tight (by decide)
  | call _ _ _ _ _ ih =>
    rw [Expr.text]
    exact (((ih tight).append _).append _).append _
  | uncalled _ ih | uncounted _ ih => exact ih rfl
  | increment named =>
    rw [Expr.text]
    exact named.noOperator.append _
  | literal writable => exact Primitive.noOperator writable
  | var named => exact named.noOperator
  | @grouping inner =>
    exact ⟨'(', inner.text.toList ++ [')'], by simp [Expr.text], by decide, by decide⟩

theorem Expr.Canonical.of_not_isUnary {value : Expr} (canonical : value.Canonical .unary)
    (plain : value.isUnary = false) : value.Canonical .call := by
  cases canonical with
  | unary => cases plain
  | unsigned inner => exact inner

/-- The text of an expression is read as its tokens. -/
theorem Expr.Canonical.writtenAs {tier : Tier} {value : Expr} (canonical : value.Canonical tier) :
    WrittenAs value.text value.printed := by
  induction canonical with
  | chained _ ih | operand _ ih | unsigned _ ih | uncalled _ ih | uncounted _ ih => exact ih
  | literal writable => exact Primitive.writtenAs writable
  | var named => exact named.writtenAs
  | @assign name value named inner ih =>
    intro rest more breaks scans
    have equals := ((ih rest more breaks scans).apart .assign rfl).spacing (c := ' ') rfl
    have whole := named.writtenAs (' ' :: _) _ rfl equals
    simpa [Expr.text, Expr.printed, TokenKind.description] using whole
  | @join level left right operator joins spelled leftward rightward ihLeft ihRight =>
    intro rest more breaks scans
    have joined := ((ihRight rest more breaks scans).apart operator.kind
      (Level.standsApart_of_joins joins)).spacing (c := ' ') rfl
    have whole := ihLeft (' ' :: _) _ rfl joined
    simpa [Level.text_join, Level.printed_join, spelled.lexeme, spelled.bare_eq] using whole
  | @unary operator right sign spelled inner ih =>
    intro rest more breaks scans
    have isSign : operator.kind = .bang ∨ operator.kind = .minus := by
      unfold TinyScript.isSign at sign
      split at sign <;> simp_all
    have behind := ih rest more breaks scans
    rw [Expr.text, Expr.printed, spelled.lexeme, spelled.bare_eq]
    cases plain : right.isUnary with
    | true =>
      have whole := (behind.spacing (c := ' ') rfl).sign operator.kind isSign (by simp) (by simp)
      simpa using whole
    | false =>
      obtain ⟨c, others, shape, noEquals, noMinus⟩ :=
        (inner.of_not_isUnary plain).noOperator rfl
      have whole := behind.sign operator.kind isSign (by simp [shape, noEquals])
        (by simp [shape, noMinus])
      simpa using whole
  | @call callee paren arguments called isClosing spelled values short ihCallee ihValues =>
    intro rest more breaks scans
    have closing := scans.closed .rightParen rfl
    have inside := WrittenAs.listed ihValues (')' :: rest) _ rfl closing
    have whole := ihCallee ('(' :: _) _ rfl (inside.closed .leftParen rfl)
    simpa [Expr.text, Expr.printed, Expr.texts_eq_map, Expr.printeds_eq_map, spelled.bare_eq,
      isClosing] using whole
  | @increment name sign named isCount spelled =>
    intro rest more breaks scans
    rw [Expr.text, Expr.printed, spelled.lexeme, spelled.bare_eq]
    have isSign : sign.kind = .increment ∨ sign.kind = .decrement := by
      unfold isIncrement at isCount
      split at isCount <;> simp_all
    rcases isSign with kind | kind
    · have whole := named.writtenAs ('+' :: '+' :: rest) _ rfl (scans.closed .increment rfl)
      simpa [kind, TokenKind.description] using whole
    · have whole := named.writtenAs ('-' :: '-' :: rest) _ rfl (scans.closed .decrement rfl)
      simpa [kind, TokenKind.description] using whole
  | @grouping inner grouped ih =>
    intro rest more breaks scans
    have closing := scans.closed .rightParen rfl
    have whole := (ih (')' :: rest) _ rfl closing).closed .leftParen rfl
    simpa [Expr.text, Expr.printed, TokenKind.description] using whole

theorem Stmt.texts_eq_map (statements : List Stmt) :
    Stmt.texts statements = statements.map Stmt.text := by
  induction statements with
  | nil => rfl
  | cons first others ih => simp [Stmt.texts, ih]

theorem Stmt.printeds_eq_flatMap (statements : List Stmt) :
    Stmt.printeds statements = statements.flatMap Stmt.printed := by
  induction statements with
  | nil => rfl
  | cons first others ih => simp [Stmt.printeds, ih]

/-- Statements between braces. -/
theorem WrittenAs.braced {statements : List Stmt}
    (each : ∀ statement ∈ statements, WrittenAs statement.text statement.printed) :
    WrittenAs (bracedText (Stmt.texts statements)) (braced (Stmt.printeds statements)) := by
  intro rest more breaks scans
  have closing := (scans.closed .rightBrace rfl).spacing (c := ' ') rfl
  cases statements with
  | nil =>
    have whole := closing.closed .leftBrace rfl
    simpa [bracedText, Stmt.texts, TinyScript.braced, Stmt.printeds, TokenKind.description]
      using whole
  | cons first others =>
    have inside := WrittenAs.spaced (c := ' ') rfl each (' ' :: _) _ rfl closing
    have whole := (inside.spacing (c := ' ') rfl).closed .leftBrace rfl
    simpa [bracedText, Stmt.texts_eq_map, TinyScript.braced, Stmt.printeds_eq_flatMap,
      TokenKind.description] using whole

/-- A reserved word with a condition in parentheses, and a statement behind it. -/
theorem WrittenAs.headed (word : Keyword) {condition body : String} {tested inner : List Token}
    (front : WrittenAs condition tested) (back : WrittenAs body inner) :
    WrittenAs (word.text ++ " (" ++ condition ++ ") " ++ body) (headed word tested ++ inner) := by
  intro rest more breaks scans
  have closing := ((back rest more breaks scans).spacing (c := ' ') rfl).closed .rightParen rfl
  have opening := (front (')' :: _) _ rfl closing).closed .leftParen rfl
  have whole := opening.apart (.keyword word) rfl
  simpa [TinyScript.headed, TokenKind.description] using whole

/-- The text of a statement is read as its tokens. -/
theorem Stmt.Canonical.writtenAs {slot : Slot} {statement : Stmt}
    (canonical : statement.Canonical slot) : WrittenAs statement.text statement.printed := by
  induction canonical with
  | statement _ ih => exact ih
  | expression inner =>
    intro rest more _ scans
    have whole := inner.writtenAs (';' :: rest) _ rfl (scans.closed .semicolon rfl)
    simpa [Stmt.text, Stmt.printed] using whole
  | @declare name initializer named initial =>
    intro rest more _ scans
    have closing := scans.closed .semicolon rfl
    cases initializer with
    | none =>
      have whole := (named.writtenAs (';' :: rest) _ rfl closing).apart (.keyword .varWord) rfl
      simpa [Stmt.text, Stmt.printed, TokenKind.description, Keyword.text] using whole
    | some value =>
      have behind := (initial value rfl).writtenAs (';' :: rest) _ rfl closing
      have equals := (behind.apart .assign rfl).spacing (c := ' ') rfl
      have whole := (named.writtenAs (' ' :: _) _ rfl equals).apart (.keyword .varWord) rfl
      simpa [Stmt.text, Stmt.printed, TokenKind.description, Keyword.text] using whole
  | block _ ih =>
    rw [Stmt.text, Stmt.printed]
    exact .braced ih
  | branch tested _ ih =>
    intro rest more breaks scans
    have whole := WrittenAs.headed .ifWord tested.writtenAs ih rest more breaks scans
    simpa [Stmt.text, Stmt.printed, Keyword.text] using whole
  | @choice condition consequent alternative tested _ _ _ ih ihLast =>
    intro rest more breaks scans
    have otherwise := ((ihLast rest more breaks scans).apart (.keyword .elseWord) rfl).spacing
      (c := ' ') rfl
    have whole := WrittenAs.headed .ifWord tested.writtenAs ih (' ' :: _) _ rfl otherwise
    simpa [Stmt.text, Stmt.printed, TokenKind.description, Keyword.text] using whole
  | loop tested _ ih =>
    intro rest more breaks scans
    have whole := WrittenAs.headed .whileWord tested.writtenAs ih rest more breaks scans
    simpa [Stmt.text, Stmt.printed, Keyword.text] using whole
  | @function name parameters body named names short _ ih =>
    intro rest more breaks scans
    have inner := ((WrittenAs.braced ih) rest more breaks scans).spacing (c := ' ') rfl
    have inside := WrittenAs.listed (fun parameter member => (names parameter member).writtenAs)
      (')' :: _) _ rfl (inner.closed .rightParen rfl)
    have opening := named.writtenAs ('(' :: _) _ rfl (inside.closed .leftParen rfl)
    have whole := opening.apart (.keyword .funWord) rfl
    simpa [Stmt.text, Stmt.printed, TokenKind.description, Keyword.text] using whole
  | @ret keyword value isReturn spelled returned =>
    intro rest more _ scans
    have closing : Scans (';' :: rest) _ := scans.closed .semicolon rfl
    cases value with
    | none =>
      have whole := closing.keyword .returnWord (show Breaks (';' :: rest) from rfl)
      simpa [Stmt.text, Stmt.printed, spelled.bare_eq, isReturn, Keyword.text] using whole
    | some present =>
      have behind := (returned present rfl).writtenAs (';' :: rest) _ rfl closing
      have whole := behind.apart (.keyword .returnWord) rfl
      simpa [Stmt.text, Stmt.printed, spelled.bare_eq, isReturn, TokenKind.description,
        Keyword.text] using whole

/-- The text of a program is read as the tokens of its statements. -/
theorem scans_programText {program : List Stmt}
    (canonical : ∀ statement ∈ program, statement.Canonical .declaration) :
    Scans (programText program).toList (Stmt.printeds program) := by
  have written := WrittenAs.spaced (c := '\n') rfl
    (fun statement member => (canonical statement member).writtenAs) [] [] trivial .nil
  simpa [programText, Stmt.texts_eq_map, Stmt.printeds_eq_flatMap] using written

end TinyScript
