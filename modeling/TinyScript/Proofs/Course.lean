import TinyScript.Syntax.Statement

/-! Parse steps side by side on two token lists that go together up to the semicolon in sight: they
succeed with the same value or stop at the same error, with the same errors noted on the way, and what
they leave goes together again. On a list beside itself, this says what comes of a step whichever way it
ends. Each way of putting steps together keeps that. -/
namespace TinyScript

/-- Whether the error stops a rule. All others are noted and passed over. -/
def SyntaxCause.stops : SyntaxCause → Bool
  | .expectedExpression | .expected _ => true
  | _ => false

/-- Token lists that go together, each with the end token behind it: both are at an end with the same
end token, or both have the same token in front. They go on together behind it unless it is a
semicolon. All tokens in sight are from the `source`. -/
structure Course (final final' : Token) where
  ahead : List Token → List Token → Prop
  source : Token → Prop
  look {tokens tokens' : List Token} : ahead tokens tokens' →
    (tokens = [] ∧ tokens' = [] ∧ final = final' ∧ source final) ∨
      ∃ token rest rest', tokens = token :: rest ∧ tokens' = token :: rest' ∧ source token ∧
        (token.kind ≠ .semicolon → ahead rest rest')

/-- The errors stand at tokens of the source, and their causes are allowed. -/
def SyntaxError.Noted (source : Token → Prop) (allowed : SyntaxCause → Prop)
    (errors : List SyntaxError) : Prop :=
  ∀ error ∈ errors, source error.token ∧ allowed error.cause

/-- Both steps succeed with the same value, or both stop at the same error. -/
inductive Step.Abreast {final final' : Token} (course : Course final final')
    (allowed : SyntaxCause → Prop) {limit limit' : Nat} {α : Type} (values : α → List Token → Prop) :
    Step limit α → Step limit' α → Prop where
  | ok {value : α} {noted : List SyntaxError} {rest rest' : List Token}
      {shorter : rest.length < limit} {shorter' : rest'.length < limit'} (fine : values value rest)
      (errors : SyntaxError.Noted course.source allowed noted) (left : course.ahead rest rest') :
      Abreast course allowed values (.ok value noted rest shorter) (.ok value noted rest' shorter')
  | fail {error : SyntaxError} {noted : List SyntaxError} {rest rest' : List Token}
      {within : rest.length ≤ limit} {within' : rest'.length ≤ limit'}
      (stopped : course.source error.token ∧ error.cause.stops = true)
      (errors : SyntaxError.Noted course.source allowed noted) (left : course.ahead rest rest') :
      Abreast course allowed values (.fail error noted rest within) (.fail error noted rest' within')

namespace SyntaxError.Noted

variable {source : Token → Prop} {allowed : SyntaxCause → Prop}

theorem nil : Noted source allowed [] := by
  intro error member
  cases member

theorem one {error : SyntaxError} (known : source error.token) (mild : allowed error.cause) :
    Noted source allowed [error] := by
  intro other member
  obtain rfl := List.mem_singleton.1 member
  exact ⟨known, mild⟩

theorem append {first second : List SyntaxError} (noted : Noted source allowed first)
    (more : Noted source allowed second) : Noted source allowed (first ++ second) :=
  List.forall_mem_append.2 ⟨noted, more⟩

end SyntaxError.Noted

variable {final final' : Token} {course : Course final final'} {allowed : SyntaxCause → Prop}

namespace Step.Abreast

variable {limit limit' larger larger' : Nat} {α β : Type}
variable {values : α → List Token → Prop} {results : β → List Token → Prop}
variable {step : Step limit α} {step' : Step limit' α}

theorem lift (abreast : step.Abreast course allowed values step') (le : limit ≤ larger)
    (le' : limit' ≤ larger') : (step.lift le).Abreast course allowed values (step'.lift le') := by
  cases abreast with
  | ok fine errors left => exact .ok fine errors left
  | fail stopped errors left => exact .fail stopped errors left

theorem weaken (abreast : step.Abreast course allowed values step') :
    step.weaken.Abreast course allowed values step'.weaken :=
  abreast.lift _ _

theorem behind {rest rest' : List Token} {step : Step rest.length α} {step' : Step rest'.length α}
    (abreast : step.Abreast course allowed values step') (shorter : rest.length < limit)
    (shorter' : rest'.length < limit') :
    (step.behind shorter).Abreast course allowed values (step'.behind shorter') :=
  abreast.lift _ _

theorem carry {tokens tokens' : List Token} {taken : Taken tokens} {taken' : Taken tokens'}
    {step : Step taken.rest.length α} {step' : Step taken'.rest.length α}
    (abreast : step.Abreast course allowed values step') :
    (taken.carry step).Abreast course allowed values (taken'.carry step') :=
  abreast.behind taken.shorter taken'.shorter

theorem imp {others : α → List Token → Prop} (abreast : step.Abreast course allowed values step')
    (implies : ∀ value rest, values value rest → others value rest) :
    step.Abreast course allowed others step' := by
  cases abreast with
  | ok fine errors left => exact .ok (implies _ _ fine) errors left
  | fail stopped errors left => exact .fail stopped errors left

theorem done {value : α} {rest rest' : List Token} (fine : values value rest)
    (left : course.ahead rest rest') :
    (Step.done value rest).Abreast course allowed values (Step.done value rest') :=
  .ok fine .nil left

theorem bind {next : α → (rest : List Token) → rest.length < limit → Step limit β}
    {next' : α → (rest : List Token) → rest.length < limit' → Step limit' β}
    (first : step.Abreast course allowed values step')
    (goesOn : ∀ value rest rest' shorter shorter', values value rest → course.ahead rest rest' →
      (next value rest shorter).Abreast course allowed results (next' value rest' shorter')) :
    (step.bind next).Abreast course allowed results (step'.bind next') := by
  cases first with
  | fail stopped errors left => exact .fail stopped errors left
  | @ok value noted rest rest' shorter shorter' fine errors left =>
    have later := goesOn value rest rest' shorter shorter' fine left
    unfold Step.bind
    dsimp only
    revert later
    generalize next value rest shorter = outcome, next' value rest' shorter' = outcome'
    intro later
    cases later with
    | ok fine more left => exact .ok fine (errors.append more) left
    | fail stopped more left => exact .fail stopped (errors.append more) left

theorem map {change : α → β} (first : step.Abreast course allowed values step')
    (changes : ∀ value rest, values value rest → results (change value) rest) :
    (step.map change).Abreast course allowed results (step'.map change) :=
  first.bind fun _ _ _ _ _ fine left => .ok (changes _ _ fine) .nil left

theorem andThen {next next' : α → (rest : List Token) → Step rest.length β}
    (first : step.Abreast course allowed values step')
    (goesOn : ∀ value rest rest', values value rest → course.ahead rest rest' →
      (next value rest).Abreast course allowed results (next' value rest')) :
    (step.andThen next).Abreast course allowed results (step'.andThen next') :=
  first.bind fun _ _ _ _ _ fine left => (goesOn _ _ _ fine left).behind _ _

end Step.Abreast

namespace Course

variable {tokens tokens' : List Token} (ahead : course.ahead tokens tokens')
include ahead

theorem current_eq : current final tokens = current final' tokens' ∧
    course.source (current final tokens) := by
  rcases course.look ahead with ⟨rfl, rfl, same, known⟩ | ⟨token, rest, rest', rfl, rfl, known, _⟩
  · exact ⟨same, known⟩
  · exact ⟨rfl, known⟩

theorem startsWith_eq (kind : TokenKind) : startsWith kind tokens = startsWith kind tokens' := by
  rcases course.look ahead with ⟨rfl, rfl, _⟩ | ⟨token, rest, rest', rfl, rfl, _⟩ <;> rfl

/-- A token other than a semicolon is taken from both lists or from none. -/
theorem take?_cases (wanted : TokenKind → Bool) (never : wanted .semicolon = false) :
    (take? wanted tokens = none ∧ take? wanted tokens' = none) ∨
      ∃ token rest rest' shorter shorter', take? wanted tokens = some ⟨token, rest, shorter⟩ ∧
        take? wanted tokens' = some ⟨token, rest', shorter'⟩ ∧ course.source token ∧
        wanted token.kind = true ∧ course.ahead rest rest' := by
  rcases course.look ahead with ⟨rfl, rfl, _⟩ | ⟨token, rest, rest', rfl, rfl, known, onwards⟩
  · exact .inl ⟨rfl, rfl⟩
  · simp only [take?]
    cases fits : wanted token.kind with
    | false => exact .inl ⟨rfl, rfl⟩
    | true =>
      have plain : token.kind ≠ .semicolon := by
        intro isStop
        rw [isStop, never] at fits
        cases fits
      exact .inr ⟨token, rest, rest', _, _, rfl, rfl, known, fits, onwards plain⟩

theorem expect {kind : TokenKind} (plain : kind ≠ .semicolon) (what : String) :
    (expect final kind what tokens).Abreast course allowed
      (fun token _ => course.source token ∧ token.kind = kind) (expect final' kind what tokens') := by
  obtain ⟨same, known⟩ := current_eq ahead
  unfold TinyScript.expect
  obtain ⟨absent, absent'⟩ | ⟨token, rest, rest', _, _, found, found', known, fits, left⟩ :=
    take?_cases ahead (· == kind) (beq_eq_false_iff_ne.2 plain.symm)
  · rw [absent, absent', same]
    exact .fail ⟨same ▸ known, rfl⟩ .nil ahead
  · rw [found, found']
    exact .ok ⟨known, by simpa using fits⟩ .nil left

end Course

end TinyScript
