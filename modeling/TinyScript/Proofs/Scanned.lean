import TinyScript.Proofs.Canonical

/-! What scanning promises about tokens: fixed kinds have their spelling, names are no reserved
words, and literals carry values that can be written down. -/
namespace TinyScript

/-- A token as scanning gives it. -/
def Token.Scanned (token : Token) : Prop :=
  match token.kind with
  | .identifier => token.Named
  | .number => ∃ value, token.literal = some (.int value) ∧ 0 ≤ value
  | .string => ∃ value, token.literal = some (.string value) ∧ '"' ∉ value.toList
  | .bytes => ∃ value, token.literal = some (.bytes value)
  | .endOfInput | .illegal => False
  | _ => token.Spelled

theorem Token.Scanned.ne_end {token : Token} (scanned : token.Scanned) :
    token.kind ≠ .endOfInput := by
  intro isEnd
  rw [Token.Scanned, isEnd] at scanned
  exact scanned

namespace Lexeme

/-- The tokens of a lexeme are as scanning gives them, wherever it stands. -/
def Sound (lexeme : Lexeme) : Prop :=
  ∀ kind literal, lexeme.meaning = .token kind literal → ∀ line span,
    Token.Scanned { kind, lexeme := String.ofList lexeme.text, literal, line, span }

theorem sound_malformed (text : List Char) (cause : LexicalCause) :
    Sound ⟨text, .malformed cause⟩ := by
  rintro _ _ ⟨⟩

theorem sound_number {base : Nat} (text digits : List Char) : Sound ⟨text, number base digits⟩ := by
  unfold number
  split
  · next small =>
    rintro _ _ ⟨⟩ line span
    refine ⟨_, rfl, ?_⟩
    rw [Int64.le_iff_toInt_le, Int64.toInt_ofNat_of_lt (Nat.lt_succ_of_le small)]
    simp
  · exact sound_malformed _ _

theorem sound_numeral (first : Char) (after : List Char) : Sound (numeral first after) := by
  unfold numeral
  split
  · dsimp only
    split
    · exact sound_malformed _ _
    · exact sound_number _ _
  · exact sound_number _ _

theorem sound_word {first : Char} (letter : isLetter first = true) (after : List Char) :
    Sound (word first after) := by
  unfold word
  dsimp only
  split
  · next keyword found =>
    rintro _ _ ⟨⟩ line span
    have same := List.find?_some found
    exact ⟨(beq_iff_eq.1 same).symm, rfl⟩
  · next found =>
    rintro _ _ ⟨⟩ line span
    refine ⟨rfl, ?_, rfl⟩
    have inside : (after.takeWhile isWordCharacter).all isWordCharacter = true := List.all_takeWhile
    rw [isNameText, found, String.toList_ofList, isWord, letter, inside]
    rfl

theorem sound_string (after : List Char) :
    Sound (quoted '"' after .unterminatedString stringMeaning) := by
  unfold quoted
  dsimp only
  split
  · exact sound_malformed _ _
  · rintro _ _ ⟨⟩ line span
    refine ⟨_, rfl, ?_⟩
    rw [String.toList_ofList]
    intro member
    simpa using List.all_eq_true.1 List.all_takeWhile '"' member

theorem sound_bytes (after : List Char) :
    Sound (quoted '\'' after .unterminatedBytes bytesMeaning) := by
  unfold quoted bytesMeaning
  dsimp only
  split
  · exact sound_malformed _ _
  · split
    · rintro _ _ ⟨⟩ line span
      exact ⟨_, rfl⟩
    · exact sound_malformed _ _

theorem sound_single {c : Char} {kind : TokenKind} (single : single? c = some kind) :
    Sound ⟨[c], .token kind none⟩ := by
  rintro _ _ ⟨⟩ line span
  unfold single? at single
  split at single
  case h_12 => cases single
  all_goals
    obtain rfl := Option.some.inj single
    exact ⟨rfl, rfl⟩

theorem sound_pair {c second : Char} {double alone : TokenKind}
    (pair : pair? c = some (second, double, alone)) :
    Sound ⟨[c, second], .token double none⟩ ∧ Sound ⟨[c], .token alone none⟩ := by
  unfold pair? at pair
  split at pair
  case h_7 => cases pair
  all_goals
    obtain ⟨rfl, rfl, rfl⟩ : _ = second ∧ _ = double ∧ _ = alone := by simpa using pair
    constructor
    · rintro _ _ ⟨⟩ line span
      exact ⟨rfl, rfl⟩
    · rintro _ _ ⟨⟩ line span
      exact ⟨rfl, rfl⟩

theorem sound_ofText (first : Char) (after : List Char) : Sound (ofText first after) := by
  unfold ofText
  split
  · next kind single => exact sound_single single
  · next second double alone _ pair =>
    split
    · exact (sound_pair pair).1
    · exact (sound_pair pair).2
  · split
    · exact sound_string after
    split
    · exact sound_bytes after
    split
    · exact sound_numeral first after
    split
    · next letter => exact sound_word letter after
    · exact sound_malformed _ _

end Lexeme

/-- Every token in front of the end token is as scanning gives it. -/
theorem Scanner.run_scanned (scanner : Scanner) :
    ∃ (items : List Item) (final : Token), scanner.run.1 = items ++ [.ok final] ∧
      final.kind = .endOfInput ∧ ∀ token, .ok token ∈ items → token.Scanned := by
  cases found : (scanner.pass (trivia scanner.rest)).rest with
  | nil =>
    obtain ⟨final, same, isEnd⟩ := run_blank found
    exact ⟨[], final, same, isEnd, by simp⟩
  | cons first after =>
    obtain ⟨start, stop, same, left⟩ := run_lexeme found
    have shorter : stop.rest.length < scanner.rest.length := by
      obtain ⟨more, shape⟩ := Lexeme.ofText_text_cons first after
      have within := length_pass_rest_le scanner (trivia scanner.rest)
      simp only [found, left, shape, List.length_drop, List.length_cons] at within ⊢
      omega
    obtain ⟨items, final, later, isEnd, scanned⟩ := stop.run_scanned
    refine ⟨stop.item start (Lexeme.ofText first after) :: items, final, by rw [same, later]; rfl,
      isEnd, ?_⟩
    intro token member
    rcases List.mem_cons.1 member with here | there
    · unfold item at here
      dsimp only at here
      split at here
      · next kind literal meant =>
        cases here
        exact Lexeme.sound_ofText first after kind literal meant _ _
      · cases here
    · exact scanned token there
termination_by scanner.rest.length

end TinyScript
