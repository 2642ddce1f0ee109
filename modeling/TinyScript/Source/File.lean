import TinyScript.Source.Utf8

/-! Files as streams of characters. A directory can be opened, but no read of it succeeds. -/
namespace TinyScript

inductive File where
  | absent (fault : InputFault)
  | directory
  | contents (bytes : List UInt8)

namespace File

/-- What reads of the opened file give, or why it cannot be opened. -/
def open? : File → Except InputFault (List Reading)
  | absent fault => .error fault
  | directory => .ok [.fault .isADirectory]
  | contents bytes => .ok (Utf8.readings bytes)

end File

/-- The characters in front of the first failing read. -/
def Reading.text (readings : List Reading) : List Char :=
  (readings.takeWhile fun reading => reading.fault?.isNone).filterMap Reading.character?

/-- The last fault among the readings. -/
def Reading.lastFault? (readings : List Reading) : Option InputFault :=
  (readings.filterMap Reading.fault?).getLast?

end TinyScript
