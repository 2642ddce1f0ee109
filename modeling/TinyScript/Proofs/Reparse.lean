import TinyScript.Proofs.CanonicalResult
import TinyScript.Proofs.RoundTrip

/-! Printing what was parsed and parsing it again. The printed text has no `for` and no print
statement of its own, so the two parses agree exactly when no expression statement of the result
looks like a print statement. -/
namespace TinyScript

open Phrase

theorem length_separated {lists : List (List Token)} {commas : List Token}
    (between : commas.length = lists.length - 1) :
    (separated lists commas).length = (listed lists).length := by
  induction lists generalizing commas with
  | nil => rfl
  | cons first others ih =>
    cases others with
    | nil => rfl
    | cons second others =>
      cases commas with
      | nil => simp at between
      | cons comma commas =>
        have inner : commas.length = (second :: others).length - 1 := by simpa using between
        simp [separated, listed, ih inner]

theorem length_listed_congr {lists others : List (List Token)}
    (same : lists.map List.length = others.map List.length) :
    (listed lists).length = (listed others).length := by
  induction lists generalizing others with
  | nil =>
    obtain rfl : others = [] := by simpa using same.symm
    rfl
  | cons first later ih =>
    cases others with
    | nil => simp at same
    | cons head tail =>
      simp only [List.map_cons, List.cons.injEq] at same
      cases later with
      | nil =>
        obtain rfl : tail = [] := by simpa using same.2.symm
        exact same.1
      | cons second later =>
        cases tail with
        | nil => simp at same
        | cons next tail => simp [listed, same.1, ih same.2]

theorem Phrase.Derives.length_printed {tier : Tier} {phrase : Phrase}
    (derives : Derives IsName tier phrase) :
    phrase.expr.printed.length = phrase.tokens.length := by
  induction derives with
  | chained _ ih | operand _ ih | unsigned _ ih | uncalled _ ih | uncounted _ ih => exact ih
  | assigned _ _ _ ih => simp [expr, Expr.printed, Phrase.tokens, ih]
  | @joined level left right operator joins _ _ ihLeft ihRight =>
    rw [expr, ← Level.join_eq_joined joins, Level.printed_join]
    simp [Phrase.tokens, ihLeft, ihRight]
  | signed _ _ ih => simp [expr, Expr.printed, Phrase.tokens, ih]
  | @call callee opening closing arguments commas _ _ _ between _ _ _ ihCallee ihValues =>
    have inside : (separated (tokenLists arguments) commas).length =
        (listed (Expr.printeds (exprs arguments))).length := by
      rw [length_separated (by simpa [tokenLists_eq_map] using between)]
      apply length_listed_congr
      rw [Expr.printeds_eq_map, exprs_eq_map, tokenLists_eq_map, List.map_map, List.map_map,
        List.map_map]
      exact List.map_congr_left fun argument member => (ihValues argument member).symm
    simp [expr, Expr.printed, Phrase.tokens, ihCallee, inside]
  | @counted target sign _ counts =>
    obtain ⟨name, rfl, _, same⟩ := expr_counted sign counts
    rw [same]
    rfl
  | @atom token =>
    rw [expr]
    unfold Expr.ofAtom
    split <;> rfl
  | group _ _ _ ih => simp [expr, Expr.printed, Phrase.tokens, ih]

theorem VariableTree.Derives.length_printed {tree : VariableTree} (derives : tree.Derives IsName) :
    tree.stmt.printed.length = tree.tokens.length := by
  obtain ⟨keyword, name, initial, semicolon⟩ := tree
  cases initial with
  | none => rfl
  | some entry =>
    have inner := (derives.initial entry.1 entry.2 rfl).2.length_printed
    simp [VariableTree.stmt, VariableTree.tokens, Stmt.printed, inner]

theorem ConditionTree.Derives.length_printed {word : Keyword} {tree : ConditionTree}
    (derives : tree.Derives IsName word) :
    (headed word tree.value.expr.printed).length = tree.tokens.length := by
  simp [headed, ConditionTree.tokens, derives.condition.length_printed]

theorem FunctionTree.Derives.length_printed {tree : FunctionTree} (derives : tree.Derives)
    (body : List Stmt) :
    (Stmt.function tree.name tree.parameters body).printed.length =
      tree.tokens.length + (Stmt.printeds body).length + 1 := by
  have inside : (separated (tree.parameters.map ([·])) tree.commas).length =
      (listed (tree.parameters.map fun parameter => [parameter.bare])).length := by
    rw [length_separated (by simpa using derives.between)]
    apply length_listed_congr
    simp
  simp only [Stmt.printed, FunctionTree.tokens, TinyScript.braced, List.length_append,
    List.length_cons, List.length_nil, inside]
  omega

namespace Sentence

/-- Printing loses no token, and adds none only if the sentence derives without print statements. -/
def Grows (slot : Slot) (sentence : Sentence) : Prop :=
  sentence.tokens.length ≤ sentence.stmt.printed.length ∧
    (sentence.stmt.printed.length ≤ sentence.tokens.length →
      sentence.Derives IsName false slot ∧ sentence.stmt.silent = true)

theorem body_grows {body : List Sentence} (grow : ∀ sentence ∈ body, sentence.Grows .declaration) :
    (allTokens body).length ≤ (Stmt.printeds (stmts body)).length ∧
      ((Stmt.printeds (stmts body)).length ≤ (allTokens body).length →
        (∀ sentence ∈ body, sentence.Derives IsName false .declaration) ∧
          Stmt.allSilent (stmts body) = true) := by
  induction body with
  | nil => exact ⟨Nat.le_refl _, fun _ => ⟨by simp, rfl⟩⟩
  | cons first others ih =>
    obtain ⟨firstLonger, firstKept⟩ := grow first (by simp)
    obtain ⟨othersLonger, othersKept⟩ := ih fun sentence member => grow sentence (by simp [member])
    simp only [allTokens, stmts, Stmt.printeds, List.length_append, Stmt.allSilent,
      Bool.and_eq_true, List.mem_cons, forall_eq_or_imp]
    refine ⟨by omega, fun kept => ?_⟩
    obtain ⟨firstDerives, firstSilent⟩ := firstKept (by omega)
    obtain ⟨othersDerive, othersSilent⟩ := othersKept (by omega)
    exact ⟨⟨firstDerives, othersDerive⟩, firstSilent, othersSilent⟩

theorem Derives.grows {slot : Slot} {sentence : Sentence}
    (derives : sentence.Derives IsName true slot)
    (noFor : ∀ token ∈ sentence.tokens, token.kind ≠ .keyword .forWord) : sentence.Grows slot := by
  induction derives with
  | statement _ ih =>
    obtain ⟨longer, kept⟩ := ih noFor
    exact ⟨longer, fun same => ⟨.statement (kept same).1, (kept same).2⟩⟩
  | declare declares =>
    exact ⟨Nat.le_of_eq declares.length_printed.symm, fun _ => ⟨.declare declares, rfl⟩⟩
  | @function head body closing heads _ closed ih =>
    obtain ⟨longer, kept⟩ := body_grows fun sentence member => ih sentence member
      fun token inside => noFor token (by simp [tokens, mem_allTokens member inside])
    have size := heads.length_printed (stmts body)
    simp only [Grows, tokens, stmt, size, List.length_append, List.length_cons, List.length_nil]
    refine ⟨by omega, fun same => ?_⟩
    obtain ⟨derive, silent⟩ := kept (by omega)
    exact ⟨.function heads derive closed, silent⟩
  | @expression value semicolon evaluates closed silent =>
    have size := evaluates.length_printed
    refine ⟨by simp [tokens, stmt, Stmt.printed, size], fun _ => ⟨.expression evaluates closed
      (opensPrint_false _), ?_⟩⟩
    rw [evaluates.opensPrint_tokens [semicolon] (by simp [closed])] at silent
    simp [stmt, Stmt.silent, silent]
  | @print keyword semicolon value evaluates =>
    have size := evaluates.length_printed
    have longer : (Sentence.print keyword value semicolon).stmt.printed.length =
        value.tokens.length + 4 := by
      simp [stmt, printStatement, Stmt.printed, Expr.printed, Expr.printeds, listed, size]
    simp only [Grows, longer, tokens, List.length_append, List.length_cons, List.length_nil]
    exact ⟨by omega, fun same => absurd same (by omega)⟩
  | @ret keyword semicolon value isReturn evaluates closed =>
    refine ⟨?_, fun _ => ⟨.ret isReturn evaluates closed, rfl⟩⟩
    cases value with
    | none => exact Nat.le_refl _
    | some present =>
      have size := (evaluates present rfl).length_printed
      simp [tokens, stmt, Stmt.printed, optionalTokens, size]
  | @block opening closing body opened _ closed ih =>
    obtain ⟨longer, kept⟩ := body_grows fun sentence member => ih sentence member
      fun token inside => noFor token (by simp [tokens, mem_allTokens member inside])
    simp only [Grows, tokens, stmt, Stmt.printed, braced, List.length_append, List.length_cons,
      List.length_nil]
    refine ⟨by omega, fun same => ?_⟩
    obtain ⟨derive, silent⟩ := kept (by omega)
    exact ⟨.block opened derive closed, silent⟩
  | @branch head consequent heads _ ih =>
    obtain ⟨longer, kept⟩ := ih fun token member => noFor token (by simp [tokens, member])
    have size := heads.length_printed
    simp only [Grows, tokens, stmt, Stmt.printed, List.length_append, size]
    refine ⟨by omega, fun same => ?_⟩
    obtain ⟨derives, silent⟩ := kept (by omega)
    exact ⟨.branch heads derives, silent⟩
  | @choice head consequent alternative otherwise heads _ nearest isElse _ ih ihLast =>
    obtain ⟨longer, kept⟩ := ih fun token member => noFor token (by simp [tokens, member])
    obtain ⟨lastLonger, lastKept⟩ := ihLast fun token member =>
      noFor token (by simp [tokens, member])
    have size := heads.length_printed
    simp only [Grows, tokens, stmt, Stmt.printed, List.length_append, List.length_cons, size]
    refine ⟨by omega, fun same => ?_⟩
    obtain ⟨derives, silent⟩ := kept (by omega)
    obtain ⟨lastDerives, lastSilent⟩ := lastKept (by omega)
    exact ⟨.choice heads derives nearest isElse lastDerives, by simp [Stmt.silent, silent, lastSilent]⟩
  | @loop head body heads _ ih =>
    obtain ⟨longer, kept⟩ := ih fun token member => noFor token (by simp [tokens, member])
    have size := heads.length_printed
    simp only [Grows, tokens, stmt, Stmt.printed, List.length_append, size]
    refine ⟨by omega, fun same => ?_⟩
    obtain ⟨derives, silent⟩ := kept (by omega)
    exact ⟨.loop heads derives, silent⟩
  | @forLoop head body heads =>
    exact absurd heads.isFor (noFor head.keyword (by simp [tokens, ForTree.tokens]))

end Sentence

theorem mem_listed {token : Token} {lists : List (List Token)} (member : token ∈ listed lists) :
    token = .fixed .comma ∨ ∃ list ∈ lists, token ∈ list := by
  induction lists with
  | nil => cases member
  | cons first others ih =>
    cases others with
    | nil => exact .inr ⟨first, by simp, member⟩
    | cons second others =>
      rcases List.mem_append.1 member with here | there
      · exact .inr ⟨first, by simp, here⟩
      · rcases List.mem_cons.1 there with isComma | later
        · exact .inl isComma
        · exact (ih later).imp_right fun ⟨list, listed, inside⟩ => ⟨list, by simp [listed], inside⟩

/-- The tokens have no `for` among them. -/
def NoFor (tokens : List Token) : Prop := ∀ token ∈ tokens, token.kind ≠ .keyword .forWord

namespace NoFor

variable {tokens others : List Token}

theorem nil : NoFor [] := by simp [NoFor]

theorem cons {token : Token} (differs : token.kind ≠ .keyword .forWord) (later : NoFor tokens) :
    NoFor (token :: tokens) := by
  simpa [NoFor] using ⟨differs, later⟩

theorem append (front : NoFor tokens) (back : NoFor others) : NoFor (tokens ++ others) := by
  intro token member
  exact (List.mem_append.1 member).elim (front token) (back token)

theorem listed {lists : List (List Token)} (each : ∀ list ∈ lists, NoFor list) :
    NoFor (listed lists) := by
  intro token member
  rcases mem_listed member with rfl | ⟨list, found, inside⟩
  · simp
  · exact each list found token inside

end NoFor

theorem Primitive.token_ne_for (value : Primitive) : value.token.kind ≠ .keyword .forWord := by
  cases value with
  | bool value => cases value <;> simp [Primitive.token]
  | _ => simp [Primitive.token]

theorem Token.Named.ne_for {token : Token} (named : token.Named) :
    token.bare.kind ≠ .keyword .forWord := by
  simp [named.kind]

theorem Expr.Canonical.noFor {tier : Tier} {value : Expr} (canonical : value.Canonical tier) :
    NoFor value.printed := by
  induction canonical with
  | chained _ ih | operand _ ih | unsigned _ ih | uncalled _ ih | uncounted _ ih => exact ih
  | assign named _ ih => exact .cons named.ne_for (.cons (by simp) ih)
  | @join level left right operator joins _ _ _ ihLeft ihRight =>
    rw [Level.printed_join]
    refine .append ihLeft (.cons ?_ ihRight)
    intro isFor
    cases level <;> simp_all [Level.joins]
  | @unary operator right sign _ _ ih =>
    refine .cons ?_ ih
    intro isFor
    simp_all [isSign]
  | @call callee paren arguments _ isClosing _ _ _ ihCallee ihValues =>
    rw [Expr.printed, List.append_assoc]
    refine .append ihCallee (.cons (by simp) (.append (.listed ?_) (.cons (by simp [isClosing]) .nil)))
    rw [Expr.printeds_eq_map]
    intro list member
    obtain ⟨argument, found, rfl⟩ := List.mem_map.1 member
    exact ihValues argument found
  | @increment name sign named isCount =>
    refine .cons named.ne_for (.cons ?_ .nil)
    intro isFor
    simp_all [isIncrement]
  | @literal value => exact .cons value.token_ne_for .nil
  | var named => exact .cons named.ne_for .nil
  | grouping _ ih => exact .cons (by simp) (.append ih (.cons (by simp) .nil))

theorem noFor_headed {word : Keyword} {condition : Expr} (canonical : condition.Canonical .assignment)
    (differs : word ≠ .forWord) : NoFor (headed word condition.printed) :=
  .cons (by simpa using differs) (.cons (by simp) (.append canonical.noFor (.cons (by simp) .nil)))

theorem noFor_braced {statements : List Stmt}
    (each : ∀ statement ∈ statements, NoFor statement.printed) :
    NoFor (braced (Stmt.printeds statements)) := by
  refine .cons (by simp) (.append ?_ (.cons (by simp) .nil))
  intro token member
  rw [Stmt.printeds_eq_flatMap] at member
  obtain ⟨statement, found, inside⟩ := List.mem_flatMap.1 member
  exact each statement found token inside

theorem Stmt.Canonical.noFor {slot : Slot} {statement : Stmt}
    (canonical : statement.Canonical slot) : NoFor statement.printed := by
  induction canonical with
  | statement _ ih => exact ih
  | expression inner => exact .append inner.noFor (.cons (by simp) .nil)
  | @declare name initializer named initial =>
    cases initializer with
    | none => exact .cons (by simp) (.cons named.ne_for (.cons (by simp) .nil))
    | some value =>
      exact .cons (by simp) (.cons named.ne_for (.cons (by simp)
        (.append (initial value rfl).noFor (.cons (by simp) .nil))))
  | block _ ih => exact noFor_braced ih
  | branch tested _ ih => exact .append (noFor_headed tested (by decide)) ih
  | choice tested _ _ _ ih ihLast =>
    exact .append (.append (noFor_headed tested (by decide)) ih) (.cons (by simp) ihLast)
  | loop tested _ ih => exact .append (noFor_headed tested (by decide)) ih
  | @function name parameters body named names _ _ ih =>
    refine .cons (by simp) (.cons named.ne_for (.cons (by simp)
      (.append (.listed ?_) (.cons (by simp) (noFor_braced ih)))))
    intro list member
    obtain ⟨parameter, found, rfl⟩ := List.mem_map.1 member
    exact .cons (names parameter found).ne_for .nil
  | @ret keyword value isReturn _ returned =>
    cases value with
    | none => exact .cons (by simp [isReturn]) (.cons (by simp) .nil)
    | some present =>
      exact .cons (by simp [isReturn]) (.append (returned present rfl).noFor (.cons (by simp) .nil))

theorem noFor_printeds {program : List Stmt}
    (canonical : ∀ statement ∈ program, statement.Canonical .declaration) :
    NoFor (Stmt.printeds program) := by
  rw [Stmt.printeds_eq_flatMap]
  intro token member
  obtain ⟨statement, found, inside⟩ := List.mem_flatMap.1 member
  exact (canonical statement found).noFor token inside

theorem Feed.items_of_no_errors {items : List Item} {final : Token}
    (noEnd : ∀ token, .ok token ∈ items → token.kind ≠ .endOfInput)
    (quiet : (Feed.ofItems (items ++ [.ok final])).errors = []) :
    ∃ tokens : List Token, items = tokens.map .ok := by
  induction items with
  | nil => exact ⟨[], rfl⟩
  | cons item others ih =>
    cases item with
    | error error => simp [Feed.ofItems] at quiet
    | ok token =>
      have notEnd := noEnd token (by simp)
      simp only [List.cons_append, Feed.ofItems, notEnd, ↓reduceIte] at quiet
      obtain ⟨tokens, rfl⟩ := ih (fun other member => noEnd other (by simp [member])) quiet
      exact ⟨token :: tokens, rfl⟩

theorem Parsed.hasErrors_eq_false {parsed : Parsed} :
    parsed.hasErrors = false ↔ parsed.errors = [] ∧ parsed.lexicalErrors = [] := by
  simp [Parsed.hasErrors]

/-- A text without errors is scanned to the tokens of a program. -/
theorem program_of_clean {source : String} (clean : (parse source).hasErrors = false) :
    ∃ (tokens : List Token) (final : Token) (body : List Sentence),
      scan source = tokens.map .ok ++ [.ok final] ∧ Program IsName true body tokens ∧
      (parse source).statements = Sentence.stmts body ∧
      ∀ statement ∈ (parse source).statements, statement.Canonical .declaration := by
  obtain ⟨quiet, noLexical⟩ := Parsed.hasErrors_eq_false.1 clean
  obtain ⟨items, final, scanned, isEnd, areScanned⟩ := (Scanner.ofText source).run_scanned
  have scan_eq : scan source = items ++ [.ok final] := scanned
  have noErrors : (Feed.ofItems (items ++ [.ok final])).errors = [] := by
    rw [← scan_eq]
    exact noLexical
  obtain ⟨tokens, rfl⟩ :=
    Feed.items_of_no_errors (fun token member => (areScanned token member).ne_end) noErrors
  have tokensScanned : ∀ token ∈ tokens, token.Scanned := fun token member =>
    areScanned token (List.mem_map.2 ⟨token, member, rfl⟩)
  have whole : parseItems (tokens.map .ok ++ [.ok final]) = ⟨(parse source).statements, [], []⟩ := by
    rw [← scan_eq, ← quiet, ← noLexical]
    rfl
  obtain ⟨body, program, same⟩ := (parseItems_clean_iff []
    (fun token member => (tokensScanned token member).ne_end) isEnd).1 whole
  refine ⟨tokens, final, body, scan_eq, program, same.symm, ?_⟩
  rw [← same, Sentence.stmts_eq_map]
  intro statement member
  obtain ⟨sentence, found, rfl⟩ := List.mem_map.1 member
  refine (program.derives sentence found).canonical fun token inside => tokensScanned token ?_
  rw [← program.spelled]
  exact Sentence.mem_allTokens found inside

theorem tokens_eq_of_scan {tokens others : List Token} {final last : Token} {items : List Item}
    (scanned : items = tokens.map .ok ++ [.ok final]) (again : items = others.map .ok ++ [.ok last]) :
    tokens = others := by
  have front : tokens.map Except.ok = (others.map Except.ok : List Item) :=
    List.append_inj_left' (scanned.symm.trans again) rfl
  exact (List.map_inj_right fun _ _ same => Except.ok.inj same).1 front

/-- If the text of a program parses to a program with the same text, the program is silent. -/
theorem silent_of_reparse {program : List Stmt}
    (canonical : ∀ statement ∈ program, statement.Canonical .declaration)
    (clean : (parse (programText program)).hasErrors = false)
    (same : (parse (programText program)).text = programText program) :
    Stmt.allSilent program = true := by
  obtain ⟨tokens, final, scanned, agrees, _, _⟩ := scan_programText canonical
  obtain ⟨others, last, body, again, spelled, statements, canonicalAgain⟩ := program_of_clean clean
  obtain rfl := tokens_eq_of_scan scanned again
  -- The statements of the second parse print to the same text, hence to the same tokens.
  obtain ⟨third, end₃, scannedThird, agreesThird, _, _⟩ := scan_programText canonicalAgain
  have sameText : programText (parse (programText program)).statements = programText program := same
  rw [sameText] at scannedThird
  obtain rfl := tokens_eq_of_scan scanned scannedThird
  rw [statements] at agreesThird
  have noFor : ∀ token ∈ tokens, token.kind ≠ .keyword .forWord := by
    intro token member
    have printed : token.bare ∈ Stmt.printeds program := by
      rw [← agrees]
      exact List.mem_map.2 ⟨token, member, rfl⟩
    exact noFor_printeds canonical token.bare printed
  have grow : ∀ sentence ∈ body, sentence.Grows .declaration := fun sentence found =>
    (spelled.derives sentence found).grows fun token inside => noFor token (by
      rw [← spelled.spelled]
      exact Sentence.mem_allTokens found inside)
  have size : (Stmt.printeds (Sentence.stmts body)).length ≤ (Sentence.allTokens body).length := by
    refine Nat.le_of_eq ?_
    rw [spelled.spelled, ← agreesThird, List.length_map]
  obtain ⟨derives, silent⟩ := (Sentence.body_grows grow).2 size
  -- Without print statements the tokens have one derivation only.
  obtain ⟨other, otherSpelled, otherSame⟩ :=
    program_of_agrees canonical (by simp : false = true → _) agrees
  obtain rfl := Program.unique ⟨derives, spelled.spelled⟩ otherSpelled
  rw [← Stmt.allSilent_bares, ← otherSame, Stmt.allSilent_bares]
  exact silent

/-- A text without errors is printed, parsed again and printed to the same text exactly when no
expression statement of the result looks like a print statement. -/
theorem reparse_iff_silent (source : String) (clean : (parse source).hasErrors = false) :
    ((parse (parse source).text).hasErrors = false ∧
        (parse (parse source).text).text = (parse source).text) ↔
      Stmt.allSilent (parse source).statements = true := by
  obtain ⟨_, _, _, _, _, _, canonical⟩ := program_of_clean clean
  constructor
  · intro found
    obtain ⟨again, same⟩ := found
    exact silent_of_reparse canonical again same
  · intro silent
    obtain ⟨statements, parsed, same⟩ := parse_programText canonical silent
    have text : parse (parse source).text = ⟨statements, [], []⟩ := parsed
    rw [text]
    exact ⟨rfl, programText_eq_of_bares same⟩

private def countingLoop : String := "for (var i = 0; i < 3; i++) print i - -1;"

theorem reparse_countingLoop :
    (parse countingLoop).hasErrors = false ∧
      Stmt.allSilent (parse countingLoop).statements = true ∧
      (parse (parse countingLoop).text).hasErrors = false ∧
      (parse (parse countingLoop).text).text = (parse countingLoop).text := by
  have clean : (parse countingLoop).hasErrors = false := by decide +kernel
  have silent : Stmt.allSilent (parse countingLoop).statements = true := by decide +kernel
  exact ⟨clean, silent, (reparse_iff_silent countingLoop clean).2 silent⟩

/-- The clauses of a `for` loop are no statements, but the first one is printed as one. -/
private def quietClause : String := "for (print; false; ) a;"

theorem quietClause_changes :
    (parse quietClause).hasErrors = false ∧
      ¬((parse (parse quietClause).text).hasErrors = false ∧
        (parse (parse quietClause).text).text = (parse quietClause).text) := by
  have clean : (parse quietClause).hasErrors = false := by decide +kernel
  refine ⟨clean, ?_⟩
  intro found
  obtain ⟨again, same⟩ := found
  obtain ⟨_, _, _, _, _, _, canonical⟩ := program_of_clean clean
  have silent := silent_of_reparse canonical again same
  have loud : Stmt.allSilent (parse quietClause).statements = false := by decide +kernel
  simp [loud] at silent

end TinyScript
