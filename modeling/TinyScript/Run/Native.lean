import TinyScript.Run.Machine

/-! The native functions. -/
namespace TinyScript

/-- The hexadecimal text of a value: two digits a byte, integers in 64-bit two's complement with at
least two digits. Other values have none. -/
def Value.hexText? : Value → Option String
  | .bytes value => some (Text.hexOfBytes value)
  | .int value => some (String.ofList (Text.paddedHexNumeral value.toUInt64.toNat))
  | _ => none

/-- The texts of all values, one after another. -/
def joinedText (values : List Value) : String := String.join (values.map Value.text)

/-- Calls a native function; its errors are reported at `paren`. -/
def callNative (builtin : Native) (arguments : List Value) (paren : Token) : Run Value :=
  match builtin with
  | .clock => do return .int (← Run.readClock)
  | .print => do
    Run.emit (joinedText arguments)
    return .nil
  | .println => do
    Run.emit (joinedText arguments ++ "\n")
    return .nil
  | .inHex =>
    match arguments.mapM Value.hexText? with
    | some texts => do
      Run.emit (String.join texts ++ "\n")
      return .nil
    | none => Run.fail .invalidHexArgument paren

end TinyScript
