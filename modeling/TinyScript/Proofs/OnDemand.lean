import TinyScript.Proofs.Parsing

/-! What rules on a window have in common with rules on lists. A window on a stream faces the tokens
that are still to be passed; a rule that is run there agrees with a rule of the grammar if it gives
the outcome of that rule on these tokens and faces what that rule leaves. -/
namespace TinyScript

namespace Window

/-- The window stands in front of these tokens of its stream. -/
def Faces (items : List Item) (tokens : List Token) (window : Window) : Prop :=
  ∃ count, count ≤ (Feed.ofItems items).tokens.length ∧
    tokens = (Feed.ofItems items).tokens.drop count ∧ window = view items count

/-- A fresh window faces all tokens. -/
theorem faces_ofItems (items : List Item) :
    Faces items (Feed.ofItems items).tokens (ofItems items) :=
  ⟨0, Nat.zero_le _, rfl, rfl⟩

namespace Faces

variable {items : List Item} {tokens rest : List Token} {token : Token} {window : Window}

theorem at_count (faces : Faces items tokens window) :
    ∃ count, tokens = (Feed.ofItems items).tokens.drop count ∧ window = view items count ∧
      At (Feed.ofItems items) count window := by
  obtain ⟨count, within, rfl, rfl⟩ := faces
  have stands := view_at items count
  rw [Nat.min_eq_left within] at stands
  exact ⟨count, rfl, rfl, stands⟩

theorem current_eq (faces : Faces items tokens window) :
    window.current = TinyScript.current (Feed.ofItems items).final tokens := by
  obtain ⟨count, rfl, -, stands⟩ := faces.at_count
  rw [stands.current, ← List.head?_drop]
  cases (Feed.ofItems items).tokens.drop count <;> rfl

theorem next_eq (faces : Faces items tokens window) :
    window.next = TinyScript.current (Feed.ofItems items).final tokens.tail := by
  obtain ⟨count, rfl, -, stands⟩ := faces.at_count
  rw [stands.next, ← List.head?_drop, List.tail_drop]
  cases (Feed.ofItems items).tokens.drop (count + 1) <;> rfl

/-- What a window faces is never an end token. -/
theorem kind_ne (faces : Faces items (token :: rest) window) : token.kind ≠ .endOfInput := by
  obtain ⟨count, -, shape, -⟩ := faces
  refine (Feed.ends items).1 token (List.mem_of_mem_drop (i := count) ?_)
  rw [← shape]
  exact List.mem_cons_self

theorem current_cons (faces : Faces items (token :: rest) window) : window.current = token :=
  faces.current_eq

/-- Behind the last token stands the end. -/
theorem kind_nil (faces : Faces items [] window) : window.current.kind = .endOfInput := by
  rw [faces.current_eq]
  exact Feed.final_isEnd items

/-- Advancing passes the token in front. -/
theorem advance (faces : Faces items (token :: rest) window) :
    Faces items rest window.advance ∧ window.advance.previous = some token := by
  have current := faces.current_cons
  have goesOn := faces.kind_ne
  obtain ⟨count, within, shape, rfl⟩ := faces
  have inside : count < (Feed.ofItems items).tokens.length := by
    refine Nat.lt_of_not_le fun beyond => ?_
    rw [List.drop_of_length_le beyond] at shape
    cases shape
  refine ⟨⟨count + 1, inside, ?_, rfl⟩, ?_⟩
  · rw [← List.tail_drop, ← shape]
    rfl
  · rw [Window.advance, if_neg (by rw [current]; exact goesOn), current]

/-- At the end nothing is passed. -/
theorem advance_nil (faces : Faces items [] window) : window.advance = window := by
  rw [Window.advance, if_pos faces.kind_nil]

end Faces

end Window

namespace Parsing

variable {α β : Type} {rule : Parsing α} {next : α → Parsing β} {value : α} {window : Window}

/-- Behind a rule, the next one runs as it does alone, but for what has been noted before. -/
theorem bind_of_ran {noted : List SyntaxError} {behind : Window}
    (ran : rule window = some ⟨.ok value, noted, behind⟩) :
    (rule >>= next) window =
      (next value behind).map fun reply => { reply with noted := noted ++ reply.noted } := by
  show andThen rule next window = _
  rw [andThen, ran]

theorem bind_of_ok {behind : Window} (ran : rule window = some ⟨.ok value, [], behind⟩) :
    (rule >>= next) window = next value behind := by
  rw [bind_of_ran ran]
  cases next value behind <;> rfl

/-- A rule on a window agrees with the outcome of a rule on the tokens in front. -/
inductive Agrees (items : List Item) (rule : Parsing α) (window : Window) {limit : Nat} :
    Step limit α → Prop where
  | ok {value noted rest shorter behind} (ran : rule window = some ⟨.ok value, noted, behind⟩)
      (faces : Window.Faces items rest behind) :
      Agrees items rule window (.ok value noted rest shorter)
  | fail {error noted rest within behind} (ran : rule window = some ⟨.error error, noted, behind⟩)
      (faces : Window.Faces items rest behind) :
      Agrees items rule window (.fail error noted rest within)

namespace Agrees

variable {items : List Item} {limit larger : Nat} {step : Step limit α} {tokens : List Token}

theorem lift (agrees : Agrees items rule window step) (le : limit ≤ larger) :
    Agrees items rule window (step.lift le) := by
  cases agrees with
  | ok ran faces => exact .ok ran faces
  | fail ran faces => exact .fail ran faces

theorem weaken (agrees : Agrees items rule window step) : Agrees items rule window step.weaken :=
  agrees.lift _

theorem behind {rest : List Token} {step : Step rest.length α}
    (agrees : Agrees items rule window step) (shorter : rest.length < limit) :
    Agrees items rule window (step.behind shorter) :=
  agrees.lift _

theorem carry {taken : Taken tokens} {step : Step taken.rest.length α}
    (agrees : Agrees items rule window step) : Agrees items rule window (taken.carry step) :=
  agrees.behind taken.shorter

/-- Behind a rule that notes nothing, what follows may agree instead. -/
theorem after {first : Parsing β} {next : β → Parsing α} {value : β} {behind : Window}
    (ran : first window = some ⟨.ok value, [], behind⟩)
    (agrees : Agrees items (next value) behind step) : Agrees items (first >>= next) window step := by
  cases agrees with
  | ok later faces => exact .ok ((bind_of_ok ran).trans later) faces
  | fail later faces => exact .fail ((bind_of_ok ran).trans later) faces

theorem give (faces : Window.Faces items tokens window) (shorter : tokens.length < limit) :
    Agrees items (pure value) window (.ok value [] tokens shorter) :=
  .ok rfl faces

theorem done (faces : Window.Faces items tokens window) :
    Agrees items (pure value) window (.done value tokens) :=
  give faces _

/-- Noting errors agrees with giving them along with the value. -/
theorem note (faces : Window.Faces items tokens window) (shorter : tokens.length < limit)
    (errors : List SyntaxError) :
    Agrees items (Parsing.note errors >>= fun _ => pure value) window
      (.ok value errors tokens shorter) := by
  refine .ok ?_ faces
  show some (Reply.mk (.ok value) (errors ++ []) window) = _
  rw [List.append_nil]

theorem bind {follow : α → (rest : List Token) → rest.length < limit → Step limit β}
    (agrees : Agrees items rule window step)
    (goesOn : ∀ value rest shorter behind, Window.Faces items rest behind →
      Agrees items (next value) behind (follow value rest shorter)) :
    Agrees items (rule >>= next) window (step.bind follow) := by
  cases agrees with
  | fail ran faces =>
    refine .fail ?_ faces
    show andThen rule next window = _
    rw [andThen, ran]
  | @ok value noted rest shorter behind ran faces =>
    have later := goesOn value rest shorter behind faces
    simp only [Step.bind]
    generalize follow value rest shorter = outcome at later
    cases later with
    | ok also faces => exact .ok ((bind_of_ran ran).trans (congrArg _ also)) faces
    | fail also faces => exact .fail ((bind_of_ran ran).trans (congrArg _ also)) faces

theorem map {change : α → β} (agrees : Agrees items rule window step) :
    Agrees items (rule >>= fun value => pure (change value)) window (step.map change) :=
  agrees.bind fun _ _ shorter _ faces => give faces shorter

theorem andThen {follow : α → (rest : List Token) → Step rest.length β}
    (agrees : Agrees items rule window step)
    (goesOn : ∀ value rest behind, rest.length < limit → Window.Faces items rest behind →
      Agrees items (next value) behind (follow value rest)) :
    Agrees items (rule >>= next) window (step.andThen follow) :=
  agrees.bind fun value rest shorter behind faces =>
    (goesOn value rest behind shorter faces).behind shorter

theorem andOptional {follow : α → (rest : List Token) → Step (rest.length + 1) β}
    (agrees : Agrees items rule window step)
    (goesOn : ∀ value rest behind, rest.length < limit → Window.Faces items rest behind →
      Agrees items (next value) behind (follow value rest)) :
    Agrees items (rule >>= next) window (step.andOptional follow) :=
  agrees.bind fun value rest shorter behind faces =>
    (goesOn value rest behind shorter faces).lift shorter

end Agrees

section Primitives

variable {items : List Item} {tokens rest : List Token} {token : Token}

theorem advance_cons (faces : Window.Faces items (token :: rest) window) :
    advance window = some ⟨.ok token, [], window.advance⟩ := by
  rw [advance, Window.passed, faces.advance.2]
  rfl

/-- A token is checked as the list in front says. -/
theorem check_cons (faces : Window.Faces items (token :: rest) window) (wanted : TokenKind → Bool) :
    check wanted window = some ⟨.ok (wanted token.kind), [], window⟩ := by
  have goesOn : (token.kind != .endOfInput) = true := bne_iff_ne.2 faces.kind_ne
  show some (Reply.mk (.ok (window.current.kind != .endOfInput && wanted window.current.kind)) []
    window) = _
  rw [faces.current_cons, goesOn, Bool.true_and]

theorem check_nil (faces : Window.Faces items [] window) (wanted : TokenKind → Bool) :
    check wanted window = some ⟨.ok false, [], window⟩ := by
  have stops : (window.current.kind != .endOfInput) = false := by rw [faces.kind_nil]; rfl
  show some (Reply.mk (.ok (window.current.kind != .endOfInput && wanted window.current.kind)) []
    window) = _
  rw [stops, Bool.false_and]

theorem check_eq (faces : Window.Faces items tokens window) (kind : TokenKind) :
    check (· == kind) window = some ⟨.ok (startsWith kind tokens), [], window⟩ := by
  cases tokens with
  | nil => exact check_nil faces _
  | cons token rest => exact check_cons faces _

/-- A token is accepted where the grammar takes one. -/
theorem accept_cases (faces : Window.Faces items tokens window) (wanted : TokenKind → Bool) :
    (take? wanted tokens = none ∧ accept? wanted window = some ⟨.ok none, [], window⟩) ∨
      ∃ taken, take? wanted tokens = some taken ∧
        accept? wanted window = some ⟨.ok (some taken.token), [], window.advance⟩ ∧
        Window.Faces items taken.rest window.advance := by
  cases tokens with
  | nil => exact .inl ⟨rfl, (bind_of_ok (check_nil faces wanted)).trans rfl⟩
  | cons token rest =>
    have checked := check_cons faces wanted
    rw [take?]
    cases fits : wanted token.kind with
    | false =>
      rw [fits] at checked
      exact .inl ⟨rfl, (bind_of_ok checked).trans rfl⟩
    | true =>
      rw [fits] at checked
      refine .inr ⟨_, rfl, (bind_of_ok checked).trans ?_, faces.advance.1⟩
      exact (bind_of_ok (advance_cons faces)).trans rfl

theorem fail_agrees {limit : Nat} (faces : Window.Faces items tokens window) (cause : SyntaxCause)
    (within : tokens.length ≤ limit) :
    Agrees items (fail cause : Parsing α) window
      (.fail ⟨cause, current (Feed.ofItems items).final tokens⟩ [] tokens within) := by
  refine .fail ?_ faces
  rw [fail, faces.current_eq]

theorem consume_agrees (faces : Window.Faces items tokens window) (kind : TokenKind)
    (what : String) :
    Agrees items (consume kind what) window
      (expect (Feed.ofItems items).final kind what tokens) := by
  refine .after (check_eq faces kind) ?_
  unfold expect
  cases tokens with
  | nil => exact fail_agrees faces _ _
  | cons token rest =>
    rw [take?, startsWith]
    cases token.kind == kind with
    | false => exact fail_agrees faces _ _
    | true => exact .ok (advance_cons faces) faces.advance.1

end Primitives

end Parsing

end TinyScript
