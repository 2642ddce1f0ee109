import TinyScript.Proofs.Likeness
import TinyScript.Syntax.Statement

/-! Parse steps on token lists that correspond token by token: they succeed or fail together, with
like trees, corresponding errors and corresponding tokens left. Each way of putting steps together
keeps that. -/
namespace TinyScript

/-- Tokens that a parser cannot tell apart, and that stay so when others are put in their place. -/
structure Correspondence where
  tokens : Token → Token → Prop
  kind_eq {token other : Token} : tokens token other → token.kind = other.kind
  lexeme_eq {token other : Token} : tokens token other → token.lexeme = other.lexeme
  literal_eq {token other : Token} : tokens token other → token.literal = other.literal
  synthetic {token other : Token} (kind : TokenKind) (lexeme : String) : tokens token other →
    tokens (.synthetic kind lexeme token) (.synthetic kind lexeme other)

/-- Trees are alike if their tokens correspond. -/
def Correspondence.likeness (same : Correspondence) : Likeness where
  names := same.tokens
  marks := same.tokens
  lexeme_eq := same.lexeme_eq
  kind_eq := same.kind_eq

structure SyntaxError.Like (same : Correspondence) (error other : SyntaxError) : Prop where
  cause : error.cause = other.cause
  token : same.tokens error.token other.token

/-- Both steps succeed with like values, or both fail with corresponding errors. -/
inductive Step.Like (same : Correspondence) {limit limit' : Nat} {α β : Type}
    (values : α → β → Prop) : Step limit α → Step limit' β → Prop where
  | ok {value : α} {other : β} {noted noted' : List SyntaxError} {rest rest' : List Token}
      {shorter : rest.length < limit} {shorter' : rest'.length < limit'}
      (alike : values value other) (errors : List.Forall₂ (SyntaxError.Like same) noted noted')
      (left : List.Forall₂ same.tokens rest rest') :
      Like same values (.ok value noted rest shorter) (.ok other noted' rest' shorter')
  | fail {error other : SyntaxError} {noted noted' : List SyntaxError} {rest rest' : List Token}
      {within : rest.length ≤ limit} {within' : rest'.length ≤ limit'}
      (stopped : error.Like same other) (errors : List.Forall₂ (SyntaxError.Like same) noted noted')
      (left : List.Forall₂ same.tokens rest rest') :
      Like same values (.fail error noted rest within) (.fail other noted' rest' within')

variable {same : Correspondence}

namespace Step.Like

variable {limit limit' larger larger' : Nat} {α α' β β' : Type}
variable {values : α → α' → Prop} {results : β → β' → Prop}
variable {step : Step limit α} {step' : Step limit' α'}

theorem lift (alike : step.Like same values step') (le : limit ≤ larger) (le' : limit' ≤ larger') :
    (step.lift le).Like same values (step'.lift le') := by
  cases alike with
  | ok alike errors left => exact .ok alike errors left
  | fail stopped errors left => exact .fail stopped errors left

theorem weaken (alike : step.Like same values step') : step.weaken.Like same values step'.weaken :=
  alike.lift _ _

theorem behind {rest rest' : List Token} {step : Step rest.length α} {step' : Step rest'.length α'}
    (alike : step.Like same values step') (shorter : rest.length < limit)
    (shorter' : rest'.length < limit') :
    (step.behind shorter).Like same values (step'.behind shorter') :=
  alike.lift _ _

theorem carry {tokens tokens' : List Token} {taken : Taken tokens} {taken' : Taken tokens'}
    {step : Step taken.rest.length α} {step' : Step taken'.rest.length α'}
    (alike : step.Like same values step') :
    (taken.carry step).Like same values (taken'.carry step') :=
  alike.behind taken.shorter taken'.shorter

theorem done {value : α} {value' : α'} (alike : values value value') {rest rest' : List Token}
    (left : List.Forall₂ same.tokens rest rest') :
    (Step.done value rest).Like same values (Step.done value' rest') :=
  .ok alike .nil left

theorem bind {next : α → (rest : List Token) → rest.length < limit → Step limit β}
    {next' : α' → (rest : List Token) → rest.length < limit' → Step limit' β'}
    (first : step.Like same values step')
    (goesOn : ∀ value value' rest rest' shorter shorter', values value value' →
      List.Forall₂ same.tokens rest rest' →
      (next value rest shorter).Like same results (next' value' rest' shorter')) :
    (step.bind next).Like same results (step'.bind next') := by
  cases first with
  | fail stopped errors left => exact .fail stopped errors left
  | @ok value value' noted noted' rest rest' shorter shorter' alike errors left =>
    have later := goesOn value value' rest rest' shorter shorter' alike left
    unfold Step.bind
    dsimp only
    revert later
    generalize next value rest shorter = outcome, next' value' rest' shorter' = outcome'
    intro later
    cases later with
    | ok alike more left => exact .ok alike (List.rel_append errors more) left
    | fail stopped more left => exact .fail stopped (List.rel_append errors more) left

theorem map {change : α → β} {change' : α' → β'} (first : step.Like same values step')
    (changes : ∀ value value', values value value' → results (change value) (change' value')) :
    (step.map change).Like same results (step'.map change') :=
  first.bind fun _ _ _ _ _ _ alike left => .ok (changes _ _ alike) .nil left

theorem andThen {next : α → (rest : List Token) → Step rest.length β}
    {next' : α' → (rest : List Token) → Step rest.length β'} (first : step.Like same values step')
    (goesOn : ∀ value value' rest rest', values value value' →
      List.Forall₂ same.tokens rest rest' →
      (next value rest).Like same results (next' value' rest')) :
    (step.andThen next).Like same results (step'.andThen next') :=
  first.bind fun _ _ _ _ _ _ alike left => (goesOn _ _ _ _ alike left).behind _ _

theorem andOptional {next : α → (rest : List Token) → Step (rest.length + 1) β}
    {next' : α' → (rest : List Token) → Step (rest.length + 1) β'}
    (first : step.Like same values step')
    (goesOn : ∀ value value' rest rest', values value value' →
      List.Forall₂ same.tokens rest rest' →
      (next value rest).Like same results (next' value' rest')) :
    (step.andOptional next).Like same results (step'.andOptional next') :=
  first.bind fun _ _ _ _ _ _ alike left => (goesOn _ _ _ _ alike left).lift _ _

end Step.Like

section Tokens

variable {tokens tokens' : List Token} (alike : List.Forall₂ same.tokens tokens tokens')
include alike

theorem startsWith_eq (kind : TokenKind) : startsWith kind tokens = startsWith kind tokens' := by
  cases alike with
  | nil => rfl
  | cons first _ => simp [startsWith, same.kind_eq first]

/-- A token of a wanted kind is taken from both lists or from none. -/
theorem take?_alike (wanted : TokenKind → Bool) :
    (take? wanted tokens = none ∧ take? wanted tokens' = none) ∨
      ∃ taken taken', take? wanted tokens = some taken ∧ take? wanted tokens' = some taken' ∧
        same.tokens taken.token taken'.token ∧ List.Forall₂ same.tokens taken.rest taken'.rest := by
  cases alike with
  | nil => exact .inl ⟨rfl, rfl⟩
  | @cons token token' rest rest' first left =>
    simp only [take?, same.kind_eq first]
    cases wanted token'.kind with
    | true => exact .inr ⟨_, _, rfl, rfl, first, left⟩
    | false => exact .inl ⟨rfl, rfl⟩

variable {final final' : Token} (ends : same.tokens final final')
include ends

theorem current_alike : same.tokens (current final tokens) (current final' tokens') := by
  cases alike with
  | nil => exact ends
  | cons first _ => exact first

theorem expect_alike (kind : TokenKind) (what : String) :
    (expect final kind what tokens).Like same same.tokens (expect final' kind what tokens') := by
  unfold expect
  obtain ⟨absent, absent'⟩ | ⟨taken, taken', found, found', token, left⟩ :=
    take?_alike alike (· == kind)
  · rw [absent, absent']
    exact .fail ⟨rfl, current_alike alike ends⟩ .nil alike
  · rw [found, found']
    exact .ok token .nil left

end Tokens

end TinyScript
