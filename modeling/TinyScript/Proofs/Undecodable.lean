import TinyScript.Proofs.ReadStream
import TinyScript.Proofs.Tiling

/-! Files that cannot be decoded. A file is run by reads that scanning asks for; the reads that are made
behind a failing one change neither an item nor whether there is a fault, only which fault is
reported. That holds for any reads one of which fails, however they come from the bytes of the file. -/
namespace TinyScript

namespace Reading

/-- What is in front of the first failing read is read as characters. -/
theorem take_text (readings : List Reading) :
    readings.take (text readings).length = (text readings).map .character := by
  have length : (text readings).length = ((text readings).map Reading.character).length :=
    (List.length_map _).symm
  rcases text_cases readings with clean | ⟨cause, others, shape⟩
  · rw [length, ← clean, List.take_length]
  · calc readings.take (text readings).length
        = ((text readings).map character ++ fault cause :: others).take
            (text readings).length := by rw [← shape]
      _ = (text readings).map character := by rw [length, List.take_left]

/-- Without a fault, readings are the characters of their text. -/
theorem text_of_no_fault {readings : List Reading} (clean : lastFault? readings = none) :
    text readings = readings.filterMap character? := by
  have none (reading : Reading) (member : reading ∈ readings) : reading.fault? = none :=
    List.filterMap_eq_nil_iff.1 (List.getLast?_eq_none_iff.1 clean) reading member
  have whole : readings.takeWhile (fun reading => reading.fault?.isNone) = readings :=
    List.takeWhile_eq_self_iff.2 fun reading member => by rw [none reading member]; rfl
  rw [text, whole]

/-- The last fault among reads that go further than the text is one of those behind it. -/
theorem lastFault?_take_text (readings : List Reading) (more : Nat) :
    lastFault? (readings.take ((text readings).length + more)) =
      lastFault? ((readings.drop (text readings).length).take more) := by
  have clean : ((text readings).map Reading.character).filterMap fault? = [] := by simp [fault?]
  rw [List.take_add, take_text, lastFault?, List.filterMap_append, clean, List.nil_append, lastFault?]

/-- Where a read fails, there is one that does right behind the text, and so a last fault from there
on. -/
theorem fault_behind_text {readings : List Reading} (failing : ∃ cause, .fault cause ∈ readings) :
    (∃ cause, readings[(text readings).length]? = some (.fault cause)) ∧
      ∃ last, lastFault? ((readings.drop (text readings).length).take 3) = some last := by
  rcases text_cases readings with clean | ⟨cause, others, shape⟩
  · obtain ⟨cause, member⟩ := failing
    rw [clean] at member
    simp at member
  · have behind : readings.drop (text readings).length = fault cause :: others := by
      have split := List.take_append_drop (text readings).length readings
      rw [take_text] at split
      exact List.append_cancel_left (split.trans shape)
    refine ⟨⟨cause, ?_⟩, ?_⟩
    · rw [← List.head?_drop, behind]
      rfl
    · rw [behind]
      exact ⟨_, List.getLast?_cons⟩

end Reading

namespace Session

/-- Runs a program from the reads of a file, each made when scanning asks for it. A fault among them is
found when the program has been parsed. -/
def runReadings (fuel : Nat) (path : String) (readings : List Reading) (session : Session) :
    Outcome Failure Unit × Session :=
  let (items, last) := (Intake.ofReadings readings).run
  match last.fault? with
  | some fault => (.failed (.unreadable fault), session)
  | none => session.runParsed fuel path (String.ofList last.given) (parseItems items)

/-- A file that can be opened is run by reads. -/
theorem runFile_eq_runReadings (fuel : Nat) (path : String) (session : Session) {file : File}
    {readings : List Reading} (opened : file.open? = .ok readings) :
    session.runFile fuel path file = session.runReadings fuel path readings := by
  obtain ⟨items, reads, follows⟩ := Intake.run_ofReadings readings
  have asked : (Scanner.run { rest := Reading.text readings }).2.reads =
      (Intake.ofReadings readings).run.2.reads := by
    rw [Scanner.run_reads, reads]
    show 2 + (Reading.text readings).length + 1 = _
    omega
  unfold runFile runReadings
  rw [opened]
  dsimp only
  rw [asked, items, follows.fault, follows.given]
  cases met : Reading.lastFault? (readings.take (Intake.ofReadings readings).run.2.reads) with
  | some fault => rfl
  | none => rw [Reading.text_of_no_fault met]

end Session

/-- Bytes that are not valid have a read that fails. -/
theorem Utf8.exists_fault {bytes : List UInt8} (invalid : ¬ bytes.toByteArray.IsValidUTF8) :
    ∃ cause, .fault cause ∈ readings bytes := by
  rcases Reading.text_cases (readings bytes) with clean | ⟨cause, others, shape⟩
  · exact absurd (.intro _ (congrArg List.toByteArray (bytes_of_readings clean))) invalid
  · exact ⟨cause, shape ▸ List.mem_append_right _ List.mem_cons_self⟩

/-- A file that is not valid UTF-8 is never run. Reading it fails somewhere; and whatever the reads of a
file are, if one fails, then the characters in front of the first failing read are all that its items
are made of, two more reads are made behind that one and no others, and the session is left as it was,
with a report of the last fault among the three. -/
theorem undecodable_files_never_run :
    (∀ bytes : List UInt8, ¬ bytes.toByteArray.IsValidUTF8 →
      ∃ cause, .fault cause ∈ Utf8.readings bytes) ∧
    ∀ (fuel : Nat) (path : String) (session : Session) (readings : List Reading),
      (∃ cause, .fault cause ∈ readings) →
      let decoded := Reading.text readings
      let (items, last) := (Intake.ofReadings readings).run
      readings.take decoded.length = decoded.map .character ∧
        (∃ cause, readings[decoded.length]? = some (.fault cause)) ∧
        last.reads = decoded.length + 3 ∧
        items = scan (String.ofList decoded) ∧
        (∀ item ∈ items, ∃ before after, String.ofList decoded = before ++ item.lexeme ++ after) ∧
        ∃ fault, Reading.lastFault? ((readings.drop decoded.length).take 3) = some fault ∧
          session.runReadings fuel path readings = (.failed (.unreadable fault), session) ∧
          ∀ file : File, file.open? = .ok readings →
            session.runFile fuel path file = (.failed (.unreadable fault), session) := by
  refine ⟨fun _ => Utf8.exists_fault, fun fuel path session readings failing => ?_⟩
  intro decoded
  obtain ⟨items, reads, follows⟩ := Intake.run_ofReadings readings
  obtain ⟨behind, fault, last⟩ := Reading.fault_behind_text failing
  have scanned : (Intake.ofReadings readings).run.1 = scan (String.ofList decoded) := by
    rw [items, scan, Scanner.ofText, String.toList_ofList]
  have within : ∀ item ∈ (Intake.ofReadings readings).run.1,
      ∃ before after, String.ofList decoded = before ++ item.lexeme ++ after := by
    rw [scanned]
    intro item member
    obtain ⟨before, after, shape, _⟩ := Item.placedIn_of_mem_scan member
    exact ⟨before, after, shape⟩
  have reported : (Intake.ofReadings readings).run.2.fault? = some fault := by
    rw [follows.fault, reads, Reading.lastFault?_take_text, last]
  have ran : session.runReadings fuel path readings = (.failed (.unreadable fault), session) := by
    rw [Session.runReadings]
    simp only [reported]
  refine ⟨Reading.take_text readings, behind, reads, scanned, within, fault, last, ran, ?_⟩
  intro file opened
  rw [session.runFile_eq_runReadings fuel path opened, ran]

/-- An open quote, a byte that is none of a text, a letter, and the start of a character. -/
private def shattered : List UInt8 := [0x22, 0xFF, 0x62, 0xC3]

/-- The letter comes into view behind the fault but not into the quoted text, and the fault reported is
the one behind it. -/
theorem shattered_never_run :
    ¬ shattered.toByteArray.IsValidUTF8 ∧
      (Session.start fun _ => 0).runFile 1 "main" (.contents shattered) =
        (.failed (.unreadable .unexpectedEnd), Session.start fun _ => 0) ∧
      (Intake.ofReadings (Utf8.readings shattered)).run.2.reads = 4 ∧
      (Intake.ofReadings (Utf8.readings shattered)).run.1 = scan "\"" := by
  have invalid : ¬ shattered.toByteArray.IsValidUTF8 := by decide +kernel
  have decoded : Reading.text (Utf8.readings shattered) = ['"'] := by cbv
  obtain ⟨fails, never⟩ := undecodable_files_never_run
  obtain ⟨-, -, reads, items, -, fault, last, -, ran⟩ :=
    never 1 "main" (Session.start fun _ => 0) (Utf8.readings shattered) (fails shattered invalid)
  rw [decoded] at reads items last
  have latest : Reading.lastFault? (((Utf8.readings shattered).drop 1).take 3) =
      some .unexpectedEnd := by cbv
  obtain rfl : fault = .unexpectedEnd := Option.some.inj (last.symm.trans latest)
  exact ⟨invalid, ran (.contents shattered) rfl, reads, items⟩

end TinyScript
