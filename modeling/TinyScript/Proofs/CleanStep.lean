import TinyScript.Syntax.Step

/-! Clean parse steps: those that succeed and note no error on the way. Each way of putting steps
together has one lemma that says when the result is clean, so that rules can be read both ways. -/
namespace TinyScript

namespace Step

variable {limit larger : Nat} {α β : Type}

/-- The step succeeds with `value` in front of `rest` and notes no error. -/
def Reads (step : Step limit α) (value : α) (rest : List Token) : Prop :=
  ∃ shorter, step = .ok value [] rest shorter

theorem Reads.unique {step : Step limit α} {value other : α} {rest more : List Token}
    (first : step.Reads value rest) (second : step.Reads other more) :
    value = other ∧ rest = more := by
  obtain ⟨_, rfl⟩ := first
  obtain ⟨_, same⟩ := second
  cases same
  exact ⟨rfl, rfl⟩

theorem Reads.length_lt {step : Step limit α} {value : α} {rest : List Token}
    (reads : step.Reads value rest) : rest.length < limit := by
  obtain ⟨shorter, _⟩ := reads
  exact shorter

@[simp]
theorem reads_ok {value result : α} {noted : List SyntaxError} {rest more : List Token}
    {shorter : rest.length < limit} :
    (Step.ok value noted rest shorter).Reads result more ↔
      value = result ∧ noted = [] ∧ rest = more := by
  constructor
  · intro found
    obtain ⟨_, same⟩ := found
    cases same
    exact ⟨rfl, rfl, rfl⟩
  · intro found
    obtain ⟨rfl, rfl, rfl⟩ := found
    exact ⟨shorter, rfl⟩

@[simp]
theorem not_reads_fail {error : SyntaxError} {noted : List SyntaxError} {rest more : List Token}
    {within : rest.length ≤ limit} {result : α} :
    ¬ (Step.fail error noted rest within).Reads result more := by
  intro found
  obtain ⟨_, same⟩ := found
  cases same

@[simp]
theorem reads_lift {le : limit ≤ larger} {step : Step limit α} {value : α} {rest : List Token} :
    (step.lift le).Reads value rest ↔ step.Reads value rest := by
  cases step <;> simp [lift]

@[simp]
theorem reads_weaken {step : Step limit α} {value : α} {rest : List Token} :
    step.weaken.Reads value rest ↔ step.Reads value rest := reads_lift

@[simp]
theorem reads_behind {front : List Token} {shorter : front.length < limit}
    {step : Step front.length α} {value : α} {rest : List Token} :
    (step.behind shorter).Reads value rest ↔ step.Reads value rest := reads_lift

@[simp]
theorem reads_done {value result : α} {rest more : List Token} :
    (Step.done value rest).Reads result more ↔ value = result ∧ rest = more := by
  simp [done]

/-- A sequence is clean exactly when both parts are. -/
theorem reads_bind {step : Step limit α}
    {next : α → (rest : List Token) → rest.length < limit → Step limit β}
    {result : β} {rest : List Token} :
    (step.bind next).Reads result rest ↔
      ∃ value middle, ∃ shorter : middle.length < limit,
        step.Reads value middle ∧ (next value middle shorter).Reads result rest := by
  constructor
  · intro reads
    cases step with
    | fail error noted more within => exact absurd reads not_reads_fail
    | ok value noted middle shorter =>
      refine ⟨value, middle, shorter, ?_⟩
      cases outcome : next value middle shorter with
      | fail error more back within => simp [bind, outcome] at reads
      | ok final more back less =>
        simp only [bind, outcome, reads_ok, List.append_eq_nil_iff] at reads ⊢
        obtain ⟨same, ⟨clean, quiet⟩, left⟩ := reads
        exact ⟨⟨trivial, clean, trivial⟩, same, quiet, left⟩
  · intro found
    obtain ⟨value, middle, shorter, ⟨_, rfl⟩, ⟨less, reads⟩⟩ := found
    simp [bind, reads]

@[simp]
theorem reads_map {step : Step limit α} {change : α → β} {result : β} {rest : List Token} :
    (step.map change).Reads result rest ↔ ∃ value, step.Reads value rest ∧ change value = result := by
  simp only [map, reads_bind, reads_ok, true_and]
  constructor
  · intro found
    obtain ⟨value, middle, _, reads, same, rfl⟩ := found
    exact ⟨value, reads, same⟩
  · intro found
    obtain ⟨value, reads, same⟩ := found
    exact ⟨value, rest, reads.length_lt, reads, same, rfl⟩

theorem reads_andThen {step : Step limit α}
    {next : α → (rest : List Token) → Step rest.length β} {result : β} {rest : List Token} :
    (step.andThen next).Reads result rest ↔
      ∃ value middle, step.Reads value middle ∧ (next value middle).Reads result rest := by
  simp only [andThen, reads_bind, reads_behind]
  constructor
  · intro found
    obtain ⟨value, middle, _, first, second⟩ := found
    exact ⟨value, middle, first, second⟩
  · intro found
    obtain ⟨value, middle, first, second⟩ := found
    exact ⟨value, middle, first.length_lt, first, second⟩

theorem reads_andOptional {step : Step limit α}
    {next : α → (rest : List Token) → Step (rest.length + 1) β} {result : β} {rest : List Token} :
    (step.andOptional next).Reads result rest ↔
      ∃ value middle, step.Reads value middle ∧ (next value middle).Reads result rest := by
  simp only [andOptional, reads_bind, reads_lift]
  constructor
  · intro found
    obtain ⟨value, middle, _, first, second⟩ := found
    exact ⟨value, middle, first, second⟩
  · intro found
    obtain ⟨value, middle, first, second⟩ := found
    exact ⟨value, middle, first.length_lt, first, second⟩

end Step

@[simp]
theorem Taken.reads_carry {tokens : List Token} {taken : Taken tokens} {α : Type}
    {step : Step taken.rest.length α} {value : α} {rest : List Token} :
    (taken.carry step).Reads value rest ↔ step.Reads value rest := Step.reads_behind

@[simp]
theorem reads_expect {final : Token} {kind : TokenKind} {what : String} {tokens : List Token}
    {token : Token} {rest : List Token} :
    (expect final kind what tokens).Reads token rest ↔ tokens = token :: rest ∧ token.kind = kind := by
  unfold expect
  cases tokens with
  | nil => simp [take?]
  | cons first others =>
    by_cases same : first.kind = kind
    · simp only [take?, same, beq_self_eq_true, ↓reduceIte, Step.reads_ok, true_and,
        List.cons.injEq]
      constructor
      · intro found
        obtain ⟨rfl, rfl⟩ := found
        exact ⟨⟨rfl, rfl⟩, same⟩
      · intro found
        obtain ⟨⟨rfl, rfl⟩, _⟩ := found
        exact ⟨rfl, rfl⟩
    · simp only [take?, beq_eq_false_iff_ne.mpr same, Bool.false_eq_true, ↓reduceIte,
        Step.not_reads_fail, List.cons.injEq, false_iff, not_and]
      intro found
      obtain ⟨rfl, _⟩ := found
      exact same

end TinyScript
