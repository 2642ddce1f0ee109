import Mathlib.Data.List.TakeWhile
import TinyScript.Proofs.Seam
import TinyScript.Proofs.Tiling

/-! Longest match. Every lexeme is the longest piece of text from its first character on that forms
one item, and it needs nothing of its surroundings: scanned alone, it is the same item again. That an
item covers a text is said by its lexeme, so it holds of texts of any length. -/
namespace TinyScript

namespace Lexeme

theorem numeral_hexadecimal (after : List Char) :
    numeral '0' ('x' :: after) = ⟨'0' :: 'x' :: after.takeWhile Text.isHexDigit,
      if after.takeWhile Text.isHexDigit = [] then .malformed .missingHexDigits
      else number 16 (after.takeWhile Text.isHexDigit)⟩ := rfl

end Lexeme

namespace Item

/-- What the item stands for, apart from its text and its place. -/
def meaning : Item → Meaning
  | .ok token => .token token.kind token.literal
  | .error error => .malformed error.cause

end Item

/-- Scanned alone, the text is this one item, which covers all of it, and nothing else. -/
def ScansAlone (text : String) (item : Item) : Prop :=
  ∃ final : Token, scan text = [item, .ok final] ∧ final.kind = .endOfInput ∧ item.lexeme = text

theorem ScansAlone.lexeme_eq {text : String} {item : Item} (alone : ScansAlone text item) :
    item.lexeme = text := by
  obtain ⟨_, _, _, lexeme⟩ := alone
  exact lexeme

namespace Scanner

@[simp]
theorem meaning_item (scanner : Scanner) (start : Nat) (lexeme : Lexeme) :
    (scanner.item start lexeme).meaning = lexeme.meaning := by
  unfold item
  dsimp only
  split <;> next meant => exact meant.symm

/-- Nothing is skipped in front of a character unless it is spacing or starts a comment. -/
theorem trivia_eq_nil_iff {first : Char} {after : List Char} :
    trivia (first :: after) = [] ↔
      isSpacing first = false ∧ ¬(first = '/' ∧ after.head? = some '/') := by
  constructor
  · intro solid
    constructor
    · rw [Bool.eq_false_iff]
      intro spacing
      simp [trivia_spacing spacing] at solid
    · rintro ⟨rfl, slash⟩
      obtain ⟨rest, rfl⟩ := List.head?_eq_some_iff.1 slash
      simp [trivia] at solid
  · rintro ⟨solid, single⟩
    by_cases slash : first = '/'
    · subst slash
      exact trivia_slash fun double => single ⟨rfl, double⟩
    · exact trivia_solid solid slash after

mutual
/-- Behind what is skipped nothing more is. -/
theorem trivia_behind : (text behind : List Char) → text = trivia text ++ behind →
    trivia behind = []
  | [], behind, shape => by
    obtain rfl : behind = [] := by simpa [trivia] using shape.symm
    rfl
  | c :: rest, behind, shape => by
    by_cases spacing : isSpacing c = true
    · rw [trivia_spacing spacing] at shape
      exact trivia_behind rest behind (by simpa using shape)
    · by_cases slashes : c = '/' ∧ rest.head? = some '/'
      · obtain ⟨rfl, slash⟩ := slashes
        obtain ⟨more, rfl⟩ := List.head?_eq_some_iff.1 slash
        exact comment_behind more behind (by simpa [trivia] using shape)
      · have solid := trivia_eq_nil_iff.2 ⟨by simpa using spacing, slashes⟩
        rw [solid, List.nil_append] at shape
        exact shape ▸ solid

theorem comment_behind : (text behind : List Char) → text = comment text ++ behind →
    trivia behind = []
  | [], behind, shape => by
    obtain rfl : behind = [] := by simpa [comment] using shape.symm
    rfl
  | c :: rest, behind, shape => by
    unfold comment at shape
    split at shape
    · exact trivia_behind rest behind (by simpa using shape)
    · exact comment_behind rest behind (by simpa using shape)
end

end Scanner

/-- The scanner behind the first lexeme of a text. -/
def Scanner.behindFirst (first : Char) (after : List Char) : Scanner :=
  (Scanner.ofText (String.ofList (first :: after))).pass (Lexeme.ofText first after).text

/-- A text that nothing is skipped in front of starts with an item. -/
theorem scan_solid {first : Char} {after : List Char}
    (solid : Scanner.trivia (first :: after) = []) :
    scan (String.ofList (first :: after)) =
      (Scanner.behindFirst first after).item 0 (Lexeme.ofText first after) ::
        (Scanner.behindFirst first after).run.1 := by
  have rest : (Scanner.ofText (String.ofList (first :: after))).rest = first :: after :=
    String.toList_ofList
  have unmoved : (Scanner.ofText (String.ofList (first :: after))).pass [] =
      Scanner.ofText (String.ofList (first :: after)) := rfl
  have ran := Scanner.run_of_lexeme (by rw [rest, solid]) rest
  rw [unmoved] at ran
  exact ran

theorem scansAlone_of_whole {first : Char} {after : List Char}
    (solid : Scanner.trivia (first :: after) = [])
    (whole : (Lexeme.ofText first after).text = first :: after) :
    ∃ item, ScansAlone (String.ofList (first :: after)) item ∧
      item.meaning = (Lexeme.ofText first after).meaning := by
  have atEnd : (Scanner.behindFirst first after).rest = [] := by
    simp [Scanner.behindFirst, Scanner.pass, Scanner.ofText, whole]
  have blank : ((Scanner.behindFirst first after).pass
      (Scanner.trivia (Scanner.behindFirst first after).rest)).rest = [] := by
    simp [Scanner.pass, atEnd]
  obtain ⟨final, ended, isEnd⟩ := Scanner.run_blank blank
  refine ⟨(Scanner.behindFirst first after).item 0 (Lexeme.ofText first after),
    ⟨final, by rw [scan_solid solid, ended], isEnd, ?_⟩, ?_⟩
  · rw [Scanner.lexeme_item, whole]
  · rw [Scanner.meaning_item]

end TinyScript
