import TinyScript.Proofs.RulesOnDemand

/-! Parsing ends, and each declaration that is tried makes progress, whatever comes out of the stream.
The stream is then read up to its end and no further. -/
namespace TinyScript

/-- What counts of a stream and what is left unread make up the whole of it. -/
theorem Item.upToEnd_append_unread (items : List Item) :
    Item.upToEnd items ++ (Feed.ofItems items).unread = items := by
  induction items with
  | nil => rfl
  | cons item items ih =>
    cases item with
    | error error => exact congrArg (.error error :: ·) ih
    | ok token =>
      by_cases isEnd : token.kind = .endOfInput
      · simp [Item.upToEnd, Feed.ofItems, Scanner.isEnd, isEnd]
      · have goesOn : Scanner.isEnd (.ok token) = false := beq_eq_false_iff_ne.2 isEnd
        rw [Item.upToEnd, goesOn, Feed.ofItems, if_neg isEnd]
        exact congrArg (.ok token :: ·) ih

/-- A window at the end has met the end, set all errors aside and left what is behind unread. -/
theorem Window.Faces.drained {items : List Item} {window : Window} (faces : Faces items [] window) :
    window.source.ended = some window.current ∧
      window.source.errors = (Feed.ofItems items).errors ∧
      window.source.input = (Feed.ofItems items).unread := by
  have same : window.next = window.current := faces.next_eq.trans faces.current_eq.symm
  have isEnd := faces.kind_nil
  obtain ⟨count, -, -, stands⟩ := faces.at_count
  have met := stands.met (same ▸ isEnd)
  have source := stands.source
  rw [Source.feed, met, Feed.after] at source
  obtain ⟨-, -, errors, input⟩ := Feed.mk.inj source
  exact ⟨met.trans (congrArg some same), errors, input⟩

/-- A view that is not at the end faces the tokens that have not been passed. -/
theorem Window.faces_view {items : List Item} {count : Nat}
    (goesOn : (view items count).current.kind ≠ .endOfInput) :
    ∃ first after, Faces items (first :: after) (view items count) ∧
      first :: after = (Feed.ofItems items).tokens.drop count := by
  have inside : count < (Feed.ofItems items).tokens.length := by
    refine Nat.lt_of_not_le fun beyond => goesOn ?_
    have stands := view_at items count
    rw [Nat.min_eq_right beyond] at stands
    rw [stands.current, List.getElem?_eq_none (Nat.le_refl _)]
    exact Feed.final_isEnd items
  have shape := List.drop_eq_getElem_cons inside
  exact ⟨_, _, ⟨count, Nat.le_of_lt inside, shape.symm, rfl⟩, shape.symm⟩

namespace Grammar

/-- Outside of a block, declarations leave nothing. -/
theorem rest_declarations (final : Token) (tokens : List Token) :
    (declarations final false tokens).rest = [] := by
  match tokens with
  | [] =>
    unfold declarations
    rfl
  | first :: after =>
    unfold declarations
    simp only [Bool.false_and, Bool.false_eq_true, if_false]
    cases declaration final (first :: after) with
    | ok statement noted rest shorter =>
      exact rest_declarations final rest
    | fail error noted rest within =>
      have shorter : (recover rest).length < (first :: after).length :=
        length_recover_lt within (Nat.succ_pos _)
      exact rest_declarations final (recover rest)
termination_by tokens.length
decreasing_by all_goals simp only [List.length_cons] at *; omega

/-- Behind a declaration there is less than in front of it, also behind one that failed. -/
theorem recovered_ok (final first : Token) (after : List Token) :
    ∃ result noted rest shorter, recovered final (first :: after) = .ok result noted rest shorter ∧
      rest.length < (first :: after).length := by
  unfold recovered
  cases declaration final (first :: after) with
  | ok statement noted rest shorter => exact ⟨_, _, _, _, rfl, shorter⟩
  | fail error noted rest within =>
    exact ⟨_, _, _, _, rfl, length_recover_lt within (Nat.succ_pos _)⟩

end Grammar

/-- Parsing ends on every stream. With fuel in proportion to its tokens, the rules on demand give the
program of the stream; the window is then at the end, and the items up to the first end token have
been pulled from the stream, each once, and no others: what is behind is still in the input, and
further pulls leave it there. Wherever a window on the stream is not at the end, a declaration, read
or recovered from, leaves it at a later token. -/
theorem parsing_ends_with_progress (items : List Item) :
    (∀ fuel, (Rule.declarations false).need (Feed.ofItems items).tokens < fuel →
      ∃ window,
        Rule.run fuel (.declarations false) (Window.ofItems items) =
          some ⟨.ok (parseItems items).statements, (parseItems items).errors, window⟩ ∧
        window.source.errors = (parseItems items).lexicalErrors ∧
        window.current.kind = .endOfInput ∧
        items = Item.upToEnd items ++ window.source.input ∧
        ∀ last, window.source.pull last = (window.current, window.source)) ∧
    ∀ fuel count, Rule.declaration.need (Feed.ofItems items).tokens < fuel →
      (Window.view items count).current.kind ≠ .endOfInput →
      ∃ result noted later,
        Rule.run fuel .declaration (Window.view items count) =
          some ⟨.ok result, noted, Window.view items later⟩ ∧
        count < later ∧ later ≤ (Feed.ofItems items).tokens.length := by
  constructor
  · intro fuel enough
    have read := Rule.run_known items fuel (.declarations false) (Feed.ofItems items).tokens
      (Window.ofItems items) (Window.faces_ofItems items) enough
    simp only [Rule.Follows, Statements.step] at read
    obtain ⟨ran, faces⟩ := read
    rw [Grammar.rest_declarations] at faces
    obtain ⟨ended, errors, input⟩ := faces.drained
    refine ⟨_, ran, errors, faces.kind_nil, ?_, ?_⟩
    · rw [input, Item.upToEnd_append_unread]
    · intro last
      rw [Source.pull, ended]
  · intro fuel count enough goesOn
    obtain ⟨first, after, faces, left⟩ := Window.faces_view goesOn
    have fewer : (first :: after).length = (Feed.ofItems items).tokens.length - count := by
      rw [left, List.length_drop]
    have read := Rule.run_known items fuel .declaration (first :: after) (Window.view items count)
      faces (by simp only [Rule.need, Rule.rank] at enough ⊢; omega)
    obtain ⟨result, noted, rest, _, recovered, shorter⟩ :=
      Grammar.recovered_ok (Feed.ofItems items).final first after
    simp only [Rule.Follows, recovered] at read
    obtain ⟨ran, ahead⟩ := read
    obtain ⟨later, within, rfl, rfl⟩ := ahead
    rw [List.length_drop, fewer] at shorter
    exact ⟨result, noted, later, ran, by omega, within⟩

/-- `) x ;` behind malformed text, and a name behind the end. -/
private def disordered : List Item :=
  [.error ⟨.unexpectedCharacter '#', "#", 1, ⟨0, 1⟩⟩,
    .ok { kind := .rightParen, lexeme := ")", line := 1, span := ⟨1, 2⟩ },
    .ok { kind := .identifier, lexeme := "x", line := 1, span := ⟨2, 3⟩ },
    .ok { kind := .semicolon, lexeme := ";", line := 1, span := ⟨3, 4⟩ },
    .ok { kind := .endOfInput, lexeme := "", line := 1, span := ⟨4, 4⟩ },
    .ok { kind := .identifier, lexeme := "y", line := 1, span := ⟨5, 6⟩ }]

/-- The parenthesis is an error, recovery passes the name and the semicolon along with it, and the name
behind the end is left in the input. -/
theorem disordered_read_to_end :
    (∃ window, Rule.run 144 (.declarations false) (Window.ofItems disordered) =
        some ⟨.ok [], (parseItems disordered).errors, window⟩ ∧
      window.current.kind = .endOfInput ∧ window.source.input = disordered.drop 5) ∧
    ∃ result noted later, Rule.run 143 .declaration (Window.view disordered 0) =
        some ⟨.ok result, noted, Window.view disordered later⟩ ∧ 0 < later ∧ later ≤ 3 := by
  obtain ⟨ends, goesOn⟩ := parsing_ends_with_progress disordered
  obtain ⟨window, ran, -, atEnd, shape, -⟩ := ends 144 (by decide +kernel)
  refine ⟨⟨window, ?_, atEnd, ?_⟩, goesOn 143 0 (by decide +kernel) (by decide +kernel)⟩
  · have empty : (parseItems disordered).statements = [] := by cbv
    rw [ran, empty]
  · have counted : Item.upToEnd disordered = disordered.take 5 := by rfl
    rw [counted] at shape
    exact (List.append_cancel_left (shape.symm.trans (List.take_append_drop 5 disordered).symm))

end TinyScript
