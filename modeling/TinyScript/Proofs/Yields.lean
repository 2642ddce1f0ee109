import TinyScript.Proofs.Scans

/-! Runs of the scanner as a relation, one rule for the end of the input and one for a lexeme, so that
what holds of a run can be shown by induction along its items. -/
namespace TinyScript

namespace Scanner

/-- A piece at the head of the input and what is left behind it. -/
theorem rest_eq_append_pass {scanner : Scanner} {text : List Char} (front : text <+: scanner.rest) :
    scanner.rest = text ++ (scanner.pass text).rest :=
  (List.prefix_iff_eq_append.1 front).symm

theorem pass_rest_of_append {scanner : Scanner} {text behind : List Char}
    (shape : scanner.rest = text ++ behind) : (scanner.pass text).rest = behind := by
  simp [pass, shape]

/-- From the scanner on, the source has these items up to and including the end token. -/
inductive Yields : Scanner → List Item → Prop where
  | blank {scanner : Scanner} (skipped : trivia scanner.rest = scanner.rest) :
      Yields scanner [.ok (scanner.pass scanner.rest).endToken]
  | lexeme {scanner : Scanner} {gap after : List Char} {first : Char} {items : List Item}
      (skipped : trivia scanner.rest = gap) (found : scanner.rest = gap ++ first :: after)
      (later : Yields ((scanner.pass gap).pass (Lexeme.ofText first after).text) items) :
      Yields scanner
        (((scanner.pass gap).pass (Lexeme.ofText first after).text).item (scanner.pass gap).offset
          (Lexeme.ofText first after) :: items)

theorem step_of_blank {scanner : Scanner} (skipped : trivia scanner.rest = scanner.rest) :
    scanner.step.1 = .ok (scanner.pass scanner.rest).endToken := by
  have blank : (scanner.pass scanner.rest).rest = [] := by simp [pass]
  unfold step
  rw [skipped]
  dsimp only
  split
  · rfl
  · next found => simp [blank] at found

theorem step_of_lexeme {scanner : Scanner} {gap after : List Char} {first : Char}
    (skipped : trivia scanner.rest = gap) (found : scanner.rest = gap ++ first :: after) :
    scanner.step =
      (((scanner.pass gap).pass (Lexeme.ofText first after).text).item (scanner.pass gap).offset
          (Lexeme.ofText first after),
        (scanner.pass gap).pass (Lexeme.ofText first after).text) := by
  have ahead := pass_rest_of_append found
  unfold step
  rw [skipped]
  dsimp only
  split
  · next blank => simp [ahead] at blank
  · next same =>
    obtain ⟨rfl, rfl⟩ := List.cons.inj (ahead.symm.trans same)
    rfl

theorem run_of_blank {scanner : Scanner} (skipped : trivia scanner.rest = scanner.rest) :
    scanner.run.1 = [.ok (scanner.pass scanner.rest).endToken] := by
  have blank : (scanner.pass (trivia scanner.rest)).rest = [] := by simp [skipped, pass]
  rw [run, dif_pos blank, step_of_blank skipped]

theorem run_of_lexeme {scanner : Scanner} {gap after : List Char} {first : Char}
    (skipped : trivia scanner.rest = gap) (found : scanner.rest = gap ++ first :: after) :
    scanner.run.1 =
      ((scanner.pass gap).pass (Lexeme.ofText first after).text).item (scanner.pass gap).offset
          (Lexeme.ofText first after) ::
        ((scanner.pass gap).pass (Lexeme.ofText first after).text).run.1 := by
  have more : (scanner.pass (trivia scanner.rest)).rest ≠ [] := by
    simp [skipped, pass_rest_of_append found]
  rw [run, dif_neg more]
  simp only [step_of_lexeme skipped found]

/-- Either all of the input is skipped or a lexeme starts behind what is. -/
theorem blank_or_lexeme (scanner : Scanner) :
    trivia scanner.rest = scanner.rest ∨
      ∃ first after, scanner.rest = trivia scanner.rest ++ first :: after := by
  have front := rest_eq_append_pass (trivia_isPrefix scanner.rest)
  cases ahead : (scanner.pass (trivia scanner.rest)).rest with
  | nil =>
    rw [ahead, List.append_nil] at front
    exact .inl front.symm
  | cons first after =>
    rw [ahead] at front
    exact .inr ⟨first, after, front⟩

/-- A run of the scanner gives what the source has. -/
theorem run_yields (scanner : Scanner) : scanner.Yields scanner.run.1 := by
  rcases scanner.blank_or_lexeme with skipped | ⟨first, after, found⟩
  · rw [run_of_blank skipped]
    exact .blank skipped
  · have shorter : ((scanner.pass (trivia scanner.rest)).pass
        (Lexeme.ofText first after).text).rest.length < scanner.rest.length := by
      have more : (scanner.pass (trivia scanner.rest)).rest ≠ [] := by
        simp [pass_rest_of_append found]
      have stepped := length_step_rest_lt more
      rwa [step_of_lexeme rfl found] at stepped
    rw [run_of_lexeme rfl found]
    exact .lexeme rfl found (run_yields _)
termination_by scanner.rest.length

end Scanner

end TinyScript
