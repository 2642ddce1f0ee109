import TinyScript.Proofs.ProperRun

/-! Programs that come of parsing, whatever the tokens: well formed or not, what is parsed is run, and
what was declared by earlier programs stays on the heap. No operator of such a program is one that
arithmetic does not know. -/
namespace TinyScript

/-- The machine after programs have been parsed and run on it one after another, errors or not. -/
def Machine.afterParsing (machine : Machine) (programs : List (Nat × List Item)) : Machine :=
  programs.foldl (fun machine program =>
    (interpret program.1 (parseItems program.2).statements machine).2) machine

theorem parseItems_proper (items : List Item) :
    ∀ statement ∈ (parseItems items).statements, statement.Proper (fun _ => True) := by
  intro statement member
  have fits := (parseItems_fits items (fun _ _ => trivial) trivial).1 statement member
  exact ⟨fits.shape, fun _ _ => trivial⟩

theorem Machine.afterParsing_proper {machine : Machine} (proper : machine.heap.Proper (fun _ => True))
    (programs : List (Nat × List Item)) :
    (machine.afterParsing programs).heap.Proper (fun _ => True) := by
  induction programs generalizing machine with
  | nil => exact proper
  | cons program others ih =>
    exact ih (interpret_proper program.1 (parseItems_proper program.2) proper).1

/-- Parsing gives well-shaped statements, whatever the items. So a parsed program, run after any others,
lacks numbers only at the operator that it applies last, and the values that the operands of that very
node have come to are not both integers. -/
theorem parsed_programs_well_shaped (readings : Nat → Int64) (earlier : List (Nat × List Item))
    (fuel : Nat) (items : List Item) :
    (∀ statement ∈ (parseItems items).statements, statement.wellShaped = true) ∧
      let machine := (Machine.start readings).afterParsing earlier
      let traced := Traced.interpret fuel (parseItems items).statements
      traced.result machine = interpret fuel (parseItems items).statements machine ∧
        ∀ error, (interpret fuel (parseItems items).statements machine).1 = .failed error →
          error.cause = .operandsMustBeNumbers →
            ∃ application, (traced.applied machine).getLast? = some application ∧
              application.Misfits error := by
  have statements := parseItems_proper items
  refine ⟨fun statement member => (statements statement member).shape, ?_, ?_⟩
  · rw [Traced.compositional_result.interpret fuel]
  · intro error failed cause
    have kept := Machine.afterParsing_proper (Machine.start_proper readings) earlier
    exact ((interpret_proper fuel statements kept).2 error failed).numbers cause

private def subtracting : List Item := scan "fun f(a) \x7b return 1 - a; \x7d"

private def callingTwice : List Item := scan "f(2); f('0a');"

private def minusSign : Token := { kind := .minus, lexeme := "-", line := 1, span := ⟨20, 21⟩ }

/-- The function of an earlier program is called twice; the second time it gets bytes. -/
theorem bytes_subtracted :
    let machine := (Machine.start fun _ => 0).afterParsing [(9, subtracting)]
    let traced := Traced.interpret 9 (parseItems callingTwice).statements
    (interpret 9 (parseItems callingTwice).statements machine).1 =
        .failed ⟨.operandsMustBeNumbers, minusSign⟩ ∧
      (traced.applied machine).map (fun each => (each.operator, each.left.text, each.right.text)) =
        [(minusSign, "1", "2"), (minusSign, "1", "'0A'")] ∧
      ∃ application, (traced.applied machine).getLast? = some application ∧
        application.Misfits ⟨.operandsMustBeNumbers, minusSign⟩ := by
  intro machine traced
  have failed : (interpret 9 (parseItems callingTwice).statements machine).1 =
      .failed ⟨.operandsMustBeNumbers, minusSign⟩ := by decide +kernel
  obtain ⟨_, _, faults⟩ :=
    parsed_programs_well_shaped (fun _ => 0) [(9, subtracting)] 9 callingTwice
  exact ⟨failed, by decide +kernel, faults _ failed rfl⟩

end TinyScript
