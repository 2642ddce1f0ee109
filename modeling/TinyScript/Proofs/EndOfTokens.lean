import TinyScript.Proofs.FlatStatement
import TinyScript.Proofs.LikeStatement
import TinyScript.Proofs.Lookahead
import TinyScript.Proofs.StatementShape

/-! Where the end of tokens is reported that come without an end token. Parsing never tells one end
token from another, it only reports errors at it; so the errors of a parse depend on the place of its
end as far as they stand there, and not otherwise. -/
namespace TinyScript

/-- The error at another token if it stands at the first one. -/
def SyntaxError.endMoved (final other : Token) (error : SyntaxError) : SyntaxError :=
  if error.token = final then ⟨error.cause, other⟩ else error

/-- Tokens are the same, or they stand at the places of the two end tokens and agree in all else. -/
def Correspondence.ends (final other : Token) : Correspondence where
  tokens token paired := token = paired ∨
    (token.span = final.span ∧ token.kind = paired.kind ∧ token.lexeme = paired.lexeme ∧
      token.literal = paired.literal ∧ paired.line = other.line ∧ paired.span = other.span)
  kind_eq := by
    rintro token paired (rfl | ⟨_, kind, _⟩)
    · rfl
    · exact kind
  lexeme_eq := by
    rintro token paired (rfl | ⟨_, _, lexeme, _⟩)
    · rfl
    · exact lexeme
  literal_eq := by
    rintro token paired (rfl | ⟨_, _, _, literal, _⟩)
    · rfl
    · exact literal
  synthetic := by
    rintro token paired kind lexeme (rfl | ⟨span, _, _, _, placed⟩)
    · exact .inl rfl
    · exact .inr ⟨span, rfl, rfl, rfl, placed⟩

/-- Two end tokens that differ in their places alone. -/
structure Token.EndsAlike (final other : Token) : Prop where
  isEnd : final.kind = .endOfInput
  kind : final.kind = other.kind
  lexeme : final.lexeme = other.lexeme
  literal : final.literal = other.literal

theorem Token.endBehind_eq_iff {passed last : Token} :
    passed.endBehind = last.endBehind ↔
      passed.line = last.line ∧ passed.span.stop = last.span.stop := by
  simp [endBehind]

theorem Token.endsAlike_endBehind (passed last : Token) :
    passed.endBehind.EndsAlike last.endBehind := ⟨rfl, rfl, rfl, rfl⟩

section Errors

variable {tokens : List Token} {final other : Token}
variable (noEnd : ∀ token ∈ tokens, token.kind ≠ .endOfInput)
include noEnd

/-- With an end that no token stands at, an error corresponds to the same one or, at the end, to one
at the other end. -/
theorem SyntaxError.eq_endMoved_of_like (ends : final.EndsAlike other)
    (fresh : ∀ token ∈ tokens, token.span ≠ final.span) {error paired : SyntaxError}
    (alike : error.Like (.ends final other) paired)
    (within : error.token ∈ tokens ∨ error.token = final)
    (beside : paired.token ∈ tokens ∨ paired.token = other) :
    paired = error.endMoved final other := by
  have same : paired = ⟨error.cause, paired.token⟩ := by rw [alike.cause]
  unfold endMoved
  by_cases atEnd : error.token = final
  · have isEnd : paired.token.kind = .endOfInput := by
      rw [← Correspondence.kind_eq _ alike.token, atEnd, ends.isEnd]
    have there := beside.resolve_left fun member => noEnd _ member isEnd
    rw [if_pos atEnd, same, there]
  · have listed := within.resolve_right atEnd
    rcases alike.token with token | ⟨span, _⟩
    · rw [if_neg atEnd, same, ← token]
    · exact absurd span (fresh _ listed)

end Errors

/-- There is a span that no token has. -/
theorem exists_free_span (tokens : List Token) : ∃ span, ∀ token ∈ tokens, token.span ≠ span := by
  have bound : ∃ bound, ∀ token ∈ tokens, token.span.start < bound := by
    induction tokens with
    | nil => exact ⟨0, by simp⟩
    | cons first others ih =>
      obtain ⟨bound, below⟩ := ih
      refine ⟨max bound (first.span.start + 1), List.forall_mem_cons.2 ⟨by omega, ?_⟩⟩
      intro token member
      have := below token member
      omega
  obtain ⟨bound, below⟩ := bound
  refine ⟨⟨bound, bound⟩, fun token member same => ?_⟩
  exact Nat.ne_of_lt (below token member) (congrArg Span.start same)

namespace Grammar

/-- Errors stand at tokens or at the end. -/
theorem errors_within (final : Token) (inBlock : Bool) (tokens : List Token) :
    ∀ error ∈ (declarations final inBlock tokens).errors,
      error.token ∈ tokens ∨ error.token = final := by
  have fit : (declarations final inBlock tokens).Fit fun token => token ∈ tokens ∨ token = final :=
    declarations_fit (.inr rfl) inBlock tokens fun _ => Or.inl
  exact fit.errors

variable {tokens : List Token} {final other : Token}
variable (noEnd : ∀ token ∈ tokens, token.kind ≠ .endOfInput)
include noEnd

theorem errors_moved (ends : final.EndsAlike other)
    (fresh : ∀ token ∈ tokens, token.span ≠ final.span) (inBlock : Bool) :
    (declarations other inBlock tokens).errors =
      (declarations final inBlock tokens).errors.map (SyntaxError.endMoved final other) := by
  have same : List.Forall₂ (Correspondence.ends final other).tokens tokens tokens :=
    List.forall₂_same.2 fun _ _ => Or.inl rfl
  have paired : (Correspondence.ends final other).tokens final other :=
    .inr ⟨rfl, ends.kind, ends.lexeme, ends.literal, rfl, rfl⟩
  have alike := (declarations_alike paired inBlock tokens same).errors
  have within := errors_within final inBlock tokens
  have beside := errors_within other inBlock tokens
  generalize (declarations final inBlock tokens).errors = errors at alike within ⊢
  generalize (declarations other inBlock tokens).errors = others at alike beside ⊢
  induction alike with
  | nil => simp
  | cons first _ ih =>
    obtain ⟨here, later⟩ := List.forall_mem_cons.1 within
    obtain ⟨there, further⟩ := List.forall_mem_cons.1 beside
    rw [List.map_cons, ← ih later further,
      SyntaxError.eq_endMoved_of_like noEnd ends fresh first here there]

/-- If no error stands at the end, it does not matter where the end is. -/
theorem errors_of_nowhere (ends : final.EndsAlike other)
    (fresh : ∀ token ∈ tokens, token.span ≠ final.span) (inBlock : Bool)
    (nowhere : ∀ error ∈ (declarations final inBlock tokens).errors, error.token ≠ final) :
    (declarations other inBlock tokens).errors = (declarations final inBlock tokens).errors := by
  have unmoved : ∀ error ∈ (declarations final inBlock tokens).errors,
      error.endMoved final other = id error := fun error member => if_neg (nowhere error member)
  rw [errors_moved noEnd ends fresh inBlock, List.map_congr_left unmoved, List.map_id]

/-- Two ends give the same errors exactly if they are the same end or no error stands there. -/
theorem errors_eq_iff (ends : final.EndsAlike other) (inBlock : Bool) :
    (declarations final inBlock tokens).errors = (declarations other inBlock tokens).errors ↔
      (∀ error ∈ (declarations final inBlock tokens).errors, error.token ≠ final) ∨
        final = other := by
  constructor
  · intro same
    by_cases somewhere : ∃ error ∈ (declarations final inBlock tokens).errors, error.token = final
    · obtain ⟨error, member, atEnd⟩ := somewhere
      refine .inr ?_
      rcases errors_within other inBlock tokens error (same ▸ member) with listed | there
      · exact absurd (atEnd ▸ ends.isEnd) (noEnd _ listed)
      · exact atEnd.symm.trans there
    · exact .inl fun error member atEnd => somewhere ⟨error, member, atEnd⟩
  · rintro (nowhere | rfl)
    · -- Both are compared with an end that no token stands at.
      obtain ⟨span, fresh⟩ := exists_free_span tokens
      let spare : Token := { final with span }
      have first : spare.EndsAlike final := ⟨ends.isEnd, rfl, rfl, rfl⟩
      have second : spare.EndsAlike other := ⟨ends.isEnd, ends.kind, ends.lexeme, ends.literal⟩
      have moved := errors_moved noEnd first fresh inBlock
      have none : ∀ error ∈ (declarations spare inBlock tokens).errors, error.token ≠ spare := by
        intro error member atEnd
        refine nowhere (error.endMoved spare final) (moved ▸ List.mem_map_of_mem member) ?_
        rw [SyntaxError.endMoved, if_pos atEnd]
      rw [errors_of_nowhere noEnd first fresh inBlock none,
        errors_of_nowhere noEnd second fresh inBlock none]
    · rfl

end Grammar

section Parse

variable {tokens : List Token} (noEnd : ∀ token ∈ tokens, token.kind ≠ .endOfInput)
include noEnd

/-- Tokens without an end are parsed as with the made-up one behind them. -/
theorem parseTokens_eq_closed :
    parseTokens tokens = parseTokens (tokens ++ [Feed.madeUpEnd tokens]) := by
  have feed : Feed.ofItems (tokens.map .ok) = ⟨tokens, none, [], []⟩ := by
    have joined := Feed.ofItems_append noEnd []
    simpa [Feed.ofItems] using joined
  have isEnd : (Feed.madeUpEnd tokens).kind = .endOfInput := by
    have final := Feed.final_isEnd (tokens.map .ok)
    rwa [feed] at final
  rw [parseTokens_closed noEnd isEnd, parseTokens, parseItems, feed]
  rfl

end Parse

/-- Where the end of tokens is reported that come without an end token: behind the third to last of
them, or behind the first if there are fewer than three. Parsing is the same as with an end token
there. So errors at the end stand behind the last token, and are those that an end token there would
give, exactly if there are none or these two tokens end at the same place. -/
theorem end_reported_two_tokens_early (tokens : List Token) (last : Token)
    (noEnd : ∀ token ∈ tokens, token.kind ≠ .endOfInput) (ends : tokens.getLast? = some last) :
    ∃ passed, tokens[tokens.length - 3]? = some passed ∧
      parseTokens tokens = parseTokens (tokens ++ [passed.endBehind]) ∧
      (∀ error ∈ (parseTokens tokens).errors, error.token.kind = .endOfInput →
        error.token = passed.endBehind) ∧
      ((∀ error ∈ (parseTokens tokens).errors, error.token.kind = .endOfInput →
          error.token.line = last.line ∧ error.token.span = ⟨last.span.stop, last.span.stop⟩) ↔
        (∀ error ∈ (parseTokens tokens).errors, error.token.kind ≠ .endOfInput) ∨
          (passed.line = last.line ∧ passed.span.stop = last.span.stop)) ∧
      ((parseTokens tokens).errors = (parseTokens (tokens ++ [last.endBehind])).errors ↔
        (∀ error ∈ (parseTokens tokens).errors, error.token.kind ≠ .endOfInput) ∨
          (passed.line = last.line ∧ passed.span.stop = last.span.stop)) := by
  have inside : tokens.length - 3 < tokens.length := by
    have positive := List.length_pos_of_mem (List.mem_of_mem_getLast? ends)
    omega
  let passed := tokens.get ⟨tokens.length - 3, inside⟩
  have found : tokens[tokens.length - 3]? = some passed := List.getElem?_eq_getElem inside
  have closed := parseTokens_eq_closed noEnd
  rw [Feed.madeUpEnd_eq found] at closed
  have errors : (parseTokens tokens).errors =
      (Grammar.declarations passed.endBehind false tokens).errors := by
    rw [closed, parseTokens_closed noEnd rfl]
  have atEnd : ∀ error ∈ (parseTokens tokens).errors, error.token.kind = .endOfInput →
      error.token = passed.endBehind := by
    intro error member isEnd
    rw [errors] at member
    exact (Grammar.errors_within _ _ _ error member).resolve_left fun listed => noEnd _ listed isEnd
  refine ⟨passed, found, closed, atEnd, ⟨?_, ?_⟩, ?_⟩
  · intro behindLast
    by_cases somewhere : ∃ error ∈ (parseTokens tokens).errors, error.token.kind = .endOfInput
    · obtain ⟨error, member, isEnd⟩ := somewhere
      obtain ⟨line, span⟩ := behindLast error member isEnd
      rw [atEnd error member isEnd] at line span
      exact .inr ⟨line, (Span.mk.inj span).2⟩
    · exact .inl fun error member isEnd => somewhere ⟨error, member, isEnd⟩
  · rintro (nowhere | ⟨line, stop⟩) error member isEnd
    · exact absurd isEnd (nowhere error member)
    · rw [atEnd error member isEnd, ← stop]
      exact ⟨line, rfl⟩
  · have elsewhere : (∀ error ∈ (parseTokens tokens).errors, error.token.kind ≠ .endOfInput) ↔
        ∀ error ∈ (parseTokens tokens).errors, error.token ≠ passed.endBehind :=
      forall₂_congr fun error member => not_congr
        ⟨atEnd error member, fun there => by rw [there]; rfl⟩
    rw [elsewhere, errors, parseTokens_closed noEnd rfl, ← Token.endBehind_eq_iff]
    exact Grammar.errors_eq_iff noEnd (Token.endsAlike_endBehind passed last) false

private def placed (kind : TokenKind) (lexeme : String) (line : UInt32) (start : Nat) : Token :=
  { kind, lexeme, line, span := ⟨start, start + lexeme.length⟩ }

/-- A block that is opened and never closed, with one statement a line. -/
private def openBlock : List Token :=
  [placed .leftBrace "\x7b" 1 0, placed .identifier "a" 2 2, placed .semicolon ";" 2 3,
    placed .identifier "b" 3 5, placed .semicolon ";" 3 6]

/-- The missing brace is reported behind the first statement. -/
theorem openBlock_reported_early :
    (∀ token ∈ openBlock, token.kind ≠ .endOfInput) ∧
      openBlock.getLast? = some (placed .semicolon ";" 3 6) ∧
      (parseTokens openBlock).errors =
        [⟨.expected "'\x7d' after block", (placed .semicolon ";" 2 3).endBehind⟩] ∧
      parseTokens openBlock = parseTokens (openBlock ++ [(placed .semicolon ";" 2 3).endBehind]) ∧
      (parseTokens openBlock).errors ≠
        (parseTokens (openBlock ++ [(placed .semicolon ";" 3 6).endBehind])).errors := by
  have noEnd : ∀ token ∈ openBlock, token.kind ≠ .endOfInput := by decide
  have errors : (parseTokens openBlock).errors =
      [⟨.expected "'\x7d' after block", (placed .semicolon ";" 2 3).endBehind⟩] := by decide +kernel
  obtain ⟨passed, found, closed, _, _, same⟩ :=
    end_reported_two_tokens_early openBlock (placed .semicolon ";" 3 6) noEnd rfl
  obtain rfl : placed .semicolon ";" 2 3 = passed := Option.some.inj found
  refine ⟨noEnd, rfl, errors, closed, fun alike => ?_⟩
  rcases same.1 alike with nowhere | ⟨line, _⟩
  · rw [errors] at nowhere
    exact absurd rfl (nowhere _ List.mem_cons_self)
  · exact absurd line (by decide)

/-- A sign and a name below it. -/
private def signed : List Token := [placed .minus "-" 1 0, placed .identifier "a" 2 2]

/-- The missing semicolon is reported behind the sign, on the line above the name. -/
theorem signed_not_reported_behind_last :
    (∀ token ∈ signed, token.kind ≠ .endOfInput) ∧
      signed.getLast? = some (placed .identifier "a" 2 2) ∧
      ¬ ∀ error ∈ (parseTokens signed).errors, error.token.kind = .endOfInput →
        error.token.line = 2 ∧ error.token.span = ⟨3, 3⟩ := by
  decide +kernel

end TinyScript
