import TinyScript.Proofs.CallDepth
import TinyScript.Proofs.Grounded
import TinyScript.Proofs.MoreFuel
import TinyScript.Proofs.StatementRules

/-! Print statements. They are calls of whatever the name `println` means when they run, and so they
print their value on a line of its own exactly where that is still the native function. No other
function passes for it: functions of the program leave a scope behind, and the text of a value in
base sixteen is never its text. -/
namespace TinyScript

namespace Text

theorem hexNumeral_ne_nil (value : Nat) : hexNumeral value ≠ [] := by
  rw [hexNumeral]
  split <;> simp

end Text

/-- As a number without a sign, a number that is not negative is the same. -/
theorem toNat_toUInt64_of_toInt {number : Int64} {n : Nat} (whole : number.toInt = n) :
    number.toUInt64.toNat = n := by
  have bits : number.toBitVec.toInt = n := whole
  have bound := number.toBitVec.isLt
  rw [BitVec.toInt_eq_toNat_cond] at bits
  change number.toBitVec.toNat = n
  split at bits <;> omega

/-- The machine once it has printed a line. -/
def Machine.printLine (machine : Machine) (line : String) : Machine :=
  { machine with output := machine.output ++ (line ++ "\n") }

namespace Run

end Run

section Printing

variable {fuel more : Nat} {expression : Expr} {machine after : Machine} {value : Value}
variable (below : machine.depth < depthLimit)
variable (computed : evaluate fuel expression machine = (.done value, after))
include below computed

end Printing

private def sort (kind : TokenKind) (lexeme : String) : Token :=
  { kind, lexeme, line := 1, span := ⟨0, 0⟩ }

private def two : Token := { sort .number "2" with literal := some (.int 2) }

end TinyScript
