import TinyScript.Syntax.Program

/-! Looking ahead. Parsing needs no more of a stream than the token it stands at and the one behind
that, and a stream may be pulled no further than that at a time. This module describes such a window
on a stream: malformed text is set aside when it is met, the first end token is kept, and where there
is none one is made up. However the stream is pulled, the window moves over the tokens of its feed. -/
namespace TinyScript

/-- The end token behind the last token that has been passed. -/
def Token.endBehind (last : Token) : Token :=
  { kind := .endOfInput, lexeme := "", line := last.line, span := ⟨last.span.stop, last.span.stop⟩ }

namespace Feed

/-- The feed behind its first `passed` tokens. Its end token is known once it has been passed, or made
up. -/
def after (passed : Nat) (feed : Feed) : Feed :=
  { feed with
    tokens := feed.tokens.drop passed
    final? := if feed.tokens.length < passed then some feed.final else feed.final? }

theorem madeUpEnd_eq {tokens : List Token} {last : Token}
    (passed : tokens[tokens.length - 3]? = some last) : madeUpEnd tokens = last.endBehind := by
  rw [madeUpEnd, passed]
  rfl

/-- No token of a feed is an end token, and its end is one. -/
theorem ends (items : List Item) :
    (∀ token ∈ (ofItems items).tokens, token.kind ≠ .endOfInput) ∧
      ∀ final, (ofItems items).final? = some final → final.kind = .endOfInput := by
  induction items with
  | nil => simp [ofItems]
  | cons item items ih =>
    cases item with
    | error error => exact ih
    | ok token =>
      by_cases isEnd : token.kind = .endOfInput
      · simp [ofItems, isEnd]
      · simpa [ofItems, isEnd] using ih

theorem final_isEnd (items : List Item) : (ofItems items).final.kind = .endOfInput := by
  rw [final]
  cases found : (ofItems items).final? with
  | some token => exact (ends items).2 token found
  | none =>
    rw [Option.getD_none, madeUpEnd]
    split <;> rfl

end Feed

/-- A stream on the way: the errors set aside so far, the items not pulled yet, and the end token once
it has been met. -/
structure Source where
  errors : List LexicalError := []
  input : List Item
  ended : Option Token := none

namespace Source

/-- Pulls tokens from the input. An end that is made up stands behind `last`. -/
def pullFrom (last : Token) (errors : List LexicalError) : List Item → Token × Source
  | [] => (last.endBehind, { errors, input := [], ended := some last.endBehind })
  | .error error :: input => pullFrom last (errors ++ [error]) input
  | .ok token :: input =>
    (token, { errors, input, ended := if token.kind = .endOfInput then some token else none })

/-- The next token. An end token stays the next one for ever. -/
def pull (last : Token) (source : Source) : Token × Source :=
  match source.ended with
  | some final => (final, source)
  | none => pullFrom last source.errors source.input

/-- All that is still to come, with the errors set aside already. -/
def feed (source : Source) : Feed :=
  match source.ended with
  | some final => ⟨[], some final, source.errors, source.input⟩
  | none =>
    let feed := Feed.ofItems source.input
    { feed with errors := source.errors ++ feed.errors }

end Source

/-- The two tokens in view and the one that was passed last, on a stream that has been pulled no
further. -/
structure Window where
  previous : Option Token := none
  current : Token
  next : Token
  source : Source

namespace Window

/-- What stands in view before anything has been pulled. -/
def placeholder : Token := { kind := .endOfInput, lexeme := "", line := 1, span := ⟨0, 0⟩ }

/-- The first view of a stream. -/
def ofItems (items : List Item) : Window :=
  let (current, source) := Source.pull placeholder { input := items }
  let (next, source) := source.pull current
  { current, next, source }

/-- Passes the current token, unless it is an end token. -/
def advance (window : Window) : Window :=
  if window.current.kind = .endOfInput then window
  else
    let (next, source) := window.source.pull (window.previous.getD window.current)
    { previous := some window.current, current := window.next, next, source }

/-- The view of a stream after a number of advances. -/
def view (items : List Item) : Nat → Window
  | 0 => ofItems items
  | count + 1 => (view items count).advance

/-- The window stands behind the first `passed` tokens of a feed, and has met the end if that is in
view. -/
structure At (feed : Feed) (passed : Nat) (window : Window) : Prop where
  previous : window.previous = if passed = 0 then none else feed.tokens[passed - 1]?
  current : window.current = feed.tokens[passed]?.getD feed.final
  next : window.next = feed.tokens[passed + 1]?.getD feed.final
  source : window.source.feed = feed.after (passed + 2)
  met : window.next.kind = .endOfInput → window.source.ended = some window.next

end Window

namespace Source

/-- The token that is pulled next: the first to come, or the end. -/
def first (last : Token) (feed : Feed) : Token :=
  feed.tokens.head?.getD (feed.final?.getD last.endBehind)

/-- What is to come behind it. An end that has been met is kept. -/
def behind (last : Token) (feed : Feed) : Feed :=
  { feed with
    tokens := feed.tokens.tail
    final? := if feed.tokens.isEmpty then some (first last feed) else feed.final? }

theorem pullFrom_feed (last : Token) (errors : List LexicalError) (items : List Item) :
    let feed := { Feed.ofItems items with errors := errors ++ (Feed.ofItems items).errors }
    (pullFrom last errors items).1 = first last feed ∧
      (pullFrom last errors items).2.feed = behind last feed := by
  induction items generalizing errors with
  | nil => simp [pullFrom, feed, first, behind, Feed.ofItems]
  | cons item items ih =>
    cases item with
    | error error => simpa [pullFrom, Feed.ofItems, first, behind] using ih (errors ++ [error])
    | ok token =>
      by_cases isEnd : token.kind = .endOfInput
      · simp [pullFrom, feed, first, behind, Feed.ofItems, isEnd]
      · simp [pullFrom, feed, first, behind, Feed.ofItems, isEnd]

/-- Pulling takes one token from what is to come. -/
theorem pull_feed (last : Token) (source : Source) :
    (source.pull last).1 = first last source.feed ∧
      (source.pull last).2.feed = behind last source.feed := by
  obtain ⟨errors, input, ended⟩ := source
  cases ended with
  | some final => simp [pull, feed, first, behind]
  | none => exact pullFrom_feed last errors input

/-- An end token that is pulled has been met. -/
theorem pullFrom_met (last : Token) (errors : List LexicalError) (items : List Item)
    (isEnd : (pullFrom last errors items).1.kind = .endOfInput) :
    (pullFrom last errors items).2.ended = some (pullFrom last errors items).1 := by
  induction items generalizing errors with
  | nil => rfl
  | cons item items ih =>
    cases item with
    | error error => exact ih (errors ++ [error]) isEnd
    | ok token => exact if_pos isEnd

theorem pull_met (last : Token) (source : Source)
    (isEnd : (source.pull last).1.kind = .endOfInput) :
    (source.pull last).2.ended = some (source.pull last).1 := by
  obtain ⟨errors, input, ended⟩ := source
  cases ended with
  | some final => rfl
  | none => exact pullFrom_met last errors input isEnd

/-- Behind the end no error is to come. -/
theorem errors_of_ended {source : Source} {final : Token} (met : source.ended = some final) :
    source.errors = source.feed.errors := by
  rw [feed, met]

end Source

/-- Behind the right token, pulling gives the token of a feed at that place and stands one further. -/
theorem Source.pull_after {source : Source} {feed : Feed} {passed : Nat} {last : Token}
    (stands : source.feed = feed.after passed)
    (behind : feed.tokens.length = passed → Feed.madeUpEnd feed.tokens = last.endBehind) :
    (source.pull last).1 = feed.tokens[passed]?.getD feed.final ∧
      (source.pull last).2.feed = feed.after (passed + 1) := by
  obtain ⟨given, left⟩ := source.pull_feed last
  have same : first last (feed.after passed) = feed.tokens[passed]?.getD feed.final := by
    rw [first, Feed.after, List.head?_drop]
    rcases Nat.lt_trichotomy feed.tokens.length passed with beyond | here | inside
    · simp [beyond]
    · rw [Feed.final, behind here]
      simp [here]
    · simp [inside]
  rw [stands] at given left
  refine ⟨given.trans same, ?_⟩
  rw [left, Source.behind, same, Feed.after, Feed.after, List.tail_drop]
  by_cases inside : passed < feed.tokens.length
  · have early : ¬ feed.tokens.length < passed + 1 := Nat.not_lt.2 inside
    simp [early, Nat.not_le.2 inside, Nat.not_lt.2 (Nat.le_of_lt inside)]
  · have beyond : feed.tokens.length < passed + 1 := by omega
    simp [beyond, Nat.not_lt.1 inside]

namespace Window

theorem at_zero (items : List Item) : At (Feed.ofItems items) 0 (ofItems items) := by
  have start : Source.feed { input := items } = (Feed.ofItems items).after 0 := by
    simp [Source.feed, Feed.after]
  have empty : (Feed.ofItems items).tokens.length = 0 →
      Feed.madeUpEnd (Feed.ofItems items).tokens = placeholder.endBehind := by
    intro none
    rw [List.length_eq_zero_iff.1 none]
    rfl
  obtain ⟨current, source⟩ := Source.pull_after start empty
  have single : (Feed.ofItems items).tokens.length = 1 → Feed.madeUpEnd (Feed.ofItems items).tokens =
      (Source.pull placeholder { input := items }).1.endBehind := by
    intro one
    apply Feed.madeUpEnd_eq
    rw [current, one]
    simp [one]
  obtain ⟨next, ahead⟩ := Source.pull_after source single
  exact ⟨rfl, current, next, ahead, Source.pull_met _ _⟩

theorem At.advance {feed : Feed} {passed : Nat} {window : Window} (stands : At feed passed window)
    (noEnd : ∀ token ∈ feed.tokens, token.kind ≠ .endOfInput)
    (inside : passed < feed.tokens.length) : At feed (passed + 1) window.advance := by
  have here : feed.tokens[passed]? = some feed.tokens[passed] := List.getElem?_eq_getElem inside
  have current : window.current = feed.tokens[passed] := by rw [stands.current, here]; rfl
  have goesOn : window.current.kind ≠ .endOfInput := by
    rw [current]
    exact noEnd _ (List.getElem_mem inside)
  -- The end is made up behind the token passed last, or behind the first one.
  have behind : feed.tokens.length = passed + 2 →
      Feed.madeUpEnd feed.tokens = (window.previous.getD window.current).endBehind := by
    intro two
    apply Feed.madeUpEnd_eq
    rw [stands.previous, current, two]
    cases passed with
    | zero => simp
    | succ passed => simp [List.getElem?_eq_getElem (Nat.lt_of_succ_lt inside)]
  obtain ⟨next, source⟩ := Source.pull_after stands.source behind
  unfold Window.advance
  rw [if_neg goesOn]
  exact ⟨by simp [current, here], stands.next, next, source, Source.pull_met _ _⟩

/-- A window at the end of a feed stays there. -/
theorem At.advance_final {items : List Item} {window : Window}
    (stands : At (Feed.ofItems items) (Feed.ofItems items).tokens.length window) :
    window.advance = window := by
  have current : window.current = (Feed.ofItems items).final := by
    rw [stands.current]
    simp
  rw [Window.advance, if_pos (by rw [current, Feed.final_isEnd])]

/-- The window moves over the tokens of the feed and stays at their end. -/
theorem view_at (items : List Item) (count : Nat) :
    At (Feed.ofItems items) (min count (Feed.ofItems items).tokens.length) (view items count) := by
  induction count with
  | zero =>
    rw [Nat.zero_min]
    exact at_zero items
  | succ count ih =>
    by_cases inside : count < (Feed.ofItems items).tokens.length
    · rw [Nat.min_eq_left (Nat.le_of_lt inside)] at ih
      rw [Nat.min_eq_left inside]
      exact ih.advance (Feed.ends items).1 inside
    · have atEnd := Nat.le_of_not_lt inside
      rw [Nat.min_eq_right atEnd] at ih
      rw [Nat.min_eq_right (Nat.le_succ_of_le atEnd), view, ih.advance_final]
      exact ih

/-- When the end stands at the front, all errors in front of it have been set aside. -/
theorem errors_of_view_end {items : List Item} {count : Nat}
    (isEnd : (view items count).current.kind = .endOfInput) :
    (view items count).source.errors = (Feed.ofItems items).errors := by
  have stands := view_at items count
  have passedAll : (Feed.ofItems items).tokens.length ≤ count := by
    refine Nat.le_of_not_lt fun within => ?_
    rw [stands.current, Nat.min_eq_left (Nat.le_of_lt within), List.getElem?_eq_getElem within]
      at isEnd
    exact (Feed.ends items).1 _ (List.getElem_mem within) isEnd
  have next : (view items count).next = (Feed.ofItems items).final := by
    rw [stands.next, Nat.min_eq_right passedAll]
    simp
  have met := stands.met (by rw [next, Feed.final_isEnd])
  rw [Source.errors_of_ended met, stands.source]
  rfl

end Window

end TinyScript
