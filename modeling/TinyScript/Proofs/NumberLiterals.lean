import TinyScript.Proofs.ExactArithmetic
import TinyScript.Proofs.HexBytes
import TinyScript.Proofs.RoundTrip

/-! Numbers as text. A numeral of any length is read as the number it stands for, or refused if that
does not fit; and what integers are printed as, in base ten or sixteen, is read as that integer
again. Only the smallest integer is not: its sign is a token of its own, and the number behind it
does not fit. -/
namespace TinyScript

namespace Text

theorem isHexDigit_of_isDecimalDigit {c : Char} (digit : isDecimalDigit c = true) :
    isHexDigit c = true := by
  simp only [isDecimalDigit, Bool.and_eq_true, decide_eq_true_eq] at digit
  exact isHexDigit_iff.2 (.inl digit)

theorem isHexDigit_hexDigit {value : Nat} (small : value < 16) :
    isHexDigit (hexDigit value) = true := by
  rw [isHexDigit, (digitValue?_hexDigit small).1]
  rfl

theorem positionalValue_concat (base : Nat) (digits : List Char) (c : Char) :
    positionalValue base (digits ++ [c]) =
      positionalValue base digits * base + (digitValue? c).getD 0 := by
  simp [positionalValue]

/-- The hexadecimal numeral of a number has digits only and is read back as that number. -/
theorem positionalValue_hexNumeral (value : Nat) :
    (∀ c ∈ hexNumeral value, isHexDigit c = true) ∧
      positionalValue 16 (hexNumeral value) = value := by
  induction value using hexNumeral.induct with
  | case1 value small =>
    rw [hexNumeral, if_pos small]
    refine ⟨by simp [isHexDigit_hexDigit small], ?_⟩
    simp [positionalValue, (digitValue?_hexDigit small).1]
  | case2 value large ih =>
    -- The last digit is written last, so it is read last and nothing behind it shifts it.
    obtain ⟨digits, front⟩ := ih
    have small : value % 16 < 16 := Nat.mod_lt _ (by decide)
    rw [hexNumeral, if_neg large, positionalValue_concat, front, (digitValue?_hexDigit small).1]
    refine ⟨?_, Nat.div_add_mod' value 16⟩
    simpa [or_imp, forall_and, isHexDigit_hexDigit small] using digits

theorem positionalValue_paddedHexNumeral (value : Nat) :
    paddedHexNumeral value ≠ [] ∧ (∀ c ∈ paddedHexNumeral value, isHexDigit c = true) ∧
      positionalValue 16 (paddedHexNumeral value) = value := by
  obtain ⟨digits, read⟩ := positionalValue_hexNumeral value
  have notEmpty := hexNumeral_ne_nil value
  rw [paddedHexNumeral]
  split
  · next small =>
    rw [hexNumeral, if_pos small] at digits read
    refine ⟨by simp, ?_, by simpa [positionalValue, digitValue?] using read⟩
    simpa [isHexDigit, digitValue?] using digits
  · exact ⟨notEmpty, digits, read⟩

end Text

theorem Lexeme.ofText_hexadecimal {digits : List Char} (some : digits ≠ [])
    (all : ∀ c ∈ digits, Text.isHexDigit c = true) :
    ofText '0' ('x' :: digits) = ⟨'0' :: 'x' :: digits, number 16 digits⟩ := by
  have whole : digits.takeWhile Text.isHexDigit = digits := List.takeWhile_eq_self_iff.2 all
  rw [ofText_digit rfl, numeral_hexadecimal, whole, if_neg some]

/-- Scanned alone, the text is the number of this value, or is refused as a whole if the value does
not fit in 64 bits with a sign. -/
def ReadsAsNumber (text : String) (value : Nat) : Prop :=
  if value < 2 ^ 63 then
    ∃ (token : Token) (number : Int64), ScansAlone text (.ok token) ∧ token.kind = .number ∧
      token.lexeme = text ∧ token.literal = some (.int number) ∧ number.toInt = value
  else
    ∃ error : LexicalError, ScansAlone text (.error error) ∧ error.cause = .numberOutOfRange ∧
      error.lexeme = text

theorem readsAsNumber_of_lexeme {first : Char} {after : List Char} {base : Nat} {digits : List Char}
    (digit : Text.isDecimalDigit first = true) (all : ∀ c ∈ digits, Text.isHexDigit c = true)
    (found : Lexeme.ofText first after = ⟨first :: after, Lexeme.number base digits⟩) :
    ReadsAsNumber (String.ofList (first :: after))
      (Nat.ofDigits base (Text.digitValues digits).reverse) := by
  have solid := Scanner.trivia_wordCharacter (Lexeme.wordCharacter_of_digit digit) after
  rw [Lexeme.number] at found
  rw [ReadsAsNumber, ← Text.positionalValue_eq_ofDigits base all]
  -- The value is compared as a number without bounds, so leading zeros and length do not matter.
  have limit : Text.positionalValue base digits ≤ largestInt ↔
      Text.positionalValue base digits < 2 ^ 63 := Nat.lt_succ_iff.symm
  split
  · next small =>
    rw [if_pos (limit.2 small)] at found
    obtain ⟨token, alone, kind, lexeme, literal⟩ := scansAlone_token solid found
    exact ⟨token, _, alone, kind, lexeme, literal, Int64.toInt_ofNat_of_lt small⟩
  · next large =>
    rw [if_neg fun fits => large (limit.1 fits)] at found
    exact scansAlone_error solid found

theorem readsAsNumber_decimal {digits : List Char} (some : digits ≠ [])
    (all : ∀ c ∈ digits, '0' ≤ c ∧ c ≤ '9') :
    ReadsAsNumber (String.ofList digits)
      (Nat.ofDigits 10 (Text.digitValues digits).reverse) := by
  have decimal : ∀ c ∈ digits, Text.isDecimalDigit c = true := fun c member => by
    simpa [Text.isDecimalDigit] using all c member
  cases digits with
  | nil => exact absurd rfl some
  | cons first others =>
    obtain ⟨digit, inside⟩ := List.forall_mem_cons.1 decimal
    have found : Lexeme.ofText first (others ++ []) = _ :=
      Lexeme.ofText_decimal digit inside trivial
    rw [List.append_nil] at found
    exact readsAsNumber_of_lexeme digit
      (fun c member => Text.isHexDigit_of_isDecimalDigit (decimal c member)) found

theorem readsAsNumber_hexadecimal {digits : List Char} (some : digits ≠ [])
    (all : ∀ c ∈ digits, Text.isHexDigit c = true) :
    ReadsAsNumber ("0x" ++ String.ofList digits)
      (Nat.ofDigits 16 (Text.digitValues digits).reverse) := by
  have whole : "0x" ++ String.ofList digits = String.ofList ('0' :: 'x' :: digits) := by
    rw [← String.toList_inj]
    simp
  rw [whole]
  exact readsAsNumber_of_lexeme rfl all (Lexeme.ofText_hexadecimal some all)

/-- The expression that an integer is written as. A sign is not a part of the number behind it. -/
def Expr.ofInt (value : Int64) : Expr :=
  if 0 ≤ value then .literal (.int value)
  else .unary (.fixed .minus) (.literal (.int (Int64.ofInt (-value.toInt))))

section OfInt

variable {value : Int64}

theorem toInt_nonneg : 0 ≤ value ↔ 0 ≤ value.toInt := Int64.le_iff_toInt_le

/-- The only integer whose opposite does not fit is the smallest. -/
theorem toInt_opposite (notSmallest : value ≠ Int64.minValue) :
    (Int64.ofInt (-value.toInt)).toInt = -value.toInt := by
  have lower := value.le_toInt
  have upper := value.toInt_lt
  have differs : value.toInt ≠ -2 ^ 63 := fun same =>
    notSmallest (Int64.toInt_inj.1 (same.trans Int64.toInt_minValue.symm))
  exact Int64.toInt_ofInt_of_le (by omega) (by omega)

theorem Expr.text_ofInt (notSmallest : value ≠ Int64.minValue) :
    (Expr.ofInt value).text = (Value.int value).text := by
  unfold Expr.ofInt
  split
  · rfl
  · next negative =>
    rw [toInt_nonneg] at negative
    obtain ⟨n, shape⟩ := Int.eq_negSucc_of_lt_zero (Int.not_le.1 negative)
    change "-" ++ toString (Int64.ofInt (-value.toInt)).toInt = toString value.toInt
    rw [toInt_opposite notSmallest, shape]
    rfl

theorem Expr.canonical_ofInt (notSmallest : value ≠ Int64.minValue) :
    (Expr.ofInt value).Canonical .assignment := by
  unfold Expr.ofInt
  split
  · next unsigned => exact .of_primary (.literal unsigned)
  · next negative =>
    have unsigned : 0 ≤ Int64.ofInt (-value.toInt) := by
      rw [toInt_nonneg] at negative ⊢
      rw [toInt_opposite notSmallest]
      omega
    have number : Expr.Canonical .primary (.literal (.int (Int64.ofInt (-value.toInt)))) :=
      .literal unsigned
    have signed : Expr.Canonical .unary (.unary (.fixed .minus) _) :=
      .unary rfl ⟨rfl, rfl⟩ (.unsigned (.uncalled (.uncounted number)))
    exact .chained (signed.of_unary .disjunction)

theorem Expr.eq_literal_of_bare {expression : Expr} {primitive : Primitive}
    (same : expression.bare = .literal primitive) : expression = .literal primitive := by
  cases expression <;> cases same
  rfl

/-- Places do not matter for the value. -/
theorem evaluate_ofInt (notSmallest : value ≠ Int64.minValue) {expression : Expr}
    (same : expression.bare = (Expr.ofInt value).bare) (fuel : Nat) (machine : Machine) :
    evaluate (fuel + 2) expression machine = (.done (.int value), machine) := by
  unfold Expr.ofInt at same
  split at same
  · obtain rfl := Expr.eq_literal_of_bare same
    rfl
  · next negative =>
    cases expression with
    | unary operator right =>
      obtain ⟨sign, inner⟩ := Expr.unary.inj same
      obtain rfl := Expr.eq_literal_of_bare inner
      have kind : operator.kind = .minus := Token.kind_eq_of_bare sign
      obtain ⟨result, whole, exact⟩ := exactValue_of_fits (fits64_toInt value) operator
      obtain rfl := Int64.toInt_inj.1 whole
      have negated :
          applySign operator (.int (Int64.ofInt (-result.toInt))) = .ok (.int result) := by
        rw [applySign, if_neg (by simp [kind])]
        simp only [toInt_opposite notSmallest, Int.neg_neg, exact]
      change Run.ofExcept (applySign operator (.int (Int64.ofInt (-result.toInt)))) machine = _
      rw [negated]
      rfl
    | _ => cases same

/-- In base sixteen an integer without a sign is written as a numeral that is read as that integer.
-/
theorem scansAlone_hexText {value : Int64} (unsigned : 0 ≤ value) :
    ∃ line, (Value.int value).hexText? = some line ∧
      ∃ token, ScansAlone ("0x" ++ line) (.ok token) ∧ token.kind = .number ∧
        token.literal = some (.int value) := by
  have whole : value.toInt = value.toNatClampNeg := Int64.toInt_eq_toNatClampNeg unsigned
  obtain ⟨some, digits, back⟩ := Text.positionalValue_paddedHexNumeral value.toNatClampNeg
  have reads := readsAsNumber_hexadecimal some digits
  rw [← Text.positionalValue_eq_ofDigits 16 digits, back, ReadsAsNumber,
    if_pos value.toNatClampNeg_lt] at reads
  obtain ⟨token, number, alone, kind, _, literal, same⟩ := reads
  obtain rfl : number = value := Int64.toInt_inj.1 (same.trans whole.symm)
  refine ⟨_, rfl, token, ?_, kind, literal⟩
  rwa [toNat_toUInt64_of_toInt whole]

end OfInt

/-- Numbers are read exactly. Decimal digits, or hexadecimal ones behind a mark, are one token with
the number they stand for if it is below 2⁶³, and otherwise refused as a whole, however many they
are. So the text of an integer is an expression with that value, except for the smallest integer,
which has a number out of range behind its sign; and what `inHex` prints for an integer without a
sign is, behind a mark, that integer. -/
theorem number_literals_read_exactly :
    (∀ digits : List Char, digits ≠ [] → (∀ c ∈ digits, '0' ≤ c ∧ c ≤ '9') →
      ReadsAsNumber (String.ofList digits)
        (Nat.ofDigits 10 (Text.digitValues digits).reverse)) ∧
    (∀ digits : List Char, digits ≠ [] → (∀ c ∈ digits, Text.IsHexadecimal c) →
      ReadsAsNumber ("0x" ++ String.ofList digits)
        (Nat.ofDigits 16 (Text.digitValues digits).reverse)) ∧
    (∀ value : Int64, value ≠ Int64.minValue →
      scanErrors (Value.int value).text = [] ∧
        ∃ expression, parseExpression (Value.int value).text = .ok expression ∧
          ∀ fuel machine,
            evaluate (fuel + 2) expression machine = (.done (.int value), machine)) ∧
    (∃ error, scanErrors (Value.int Int64.minValue).text = [error] ∧
      error.cause = .numberOutOfRange) ∧
    ∀ value : Int64, 0 ≤ value → ∀ paren machine, ∃ line,
      callNative .inHex [.int value] paren machine = (.done .nil, machine.printLine line) ∧
        ∃ token, ScansAlone ("0x" ++ line) (.ok token) ∧ token.kind = .number ∧
          token.literal = some (.int value) := by
  refine ⟨fun digits => readsAsNumber_decimal, ?_, ?_, ?_, ?_⟩
  · intro digits some all
    exact readsAsNumber_hexadecimal some fun c member => Text.isHexDigit_iff.2 (all c member)
  · intro value notSmallest
    obtain ⟨clean, expression, parsed, same⟩ :=
      parseExpression_text (Expr.canonical_ofInt notSmallest)
    rw [Expr.text_ofInt notSmallest] at clean parsed
    exact ⟨clean, expression, parsed, evaluate_ofInt notSmallest same⟩
  · exact ⟨⟨.numberOutOfRange, "9223372036854775808", 1, ⟨1, 20⟩⟩, by decide +kernel, rfl⟩
  · intro value unsigned paren machine
    obtain ⟨line, written, scanned⟩ := scansAlone_hexText unsigned
    exact ⟨line, callNative_inHex written paren machine, scanned⟩

/-- Zeros in front do not matter, nor does letter case, and the largest number is below the limit.
-/
theorem numbers_at_the_limit :
    (∃ error : LexicalError, ScansAlone "009223372036854775808" (.error error) ∧
      error.cause = .numberOutOfRange ∧ error.lexeme = "009223372036854775808") ∧
    (∃ (token : Token) (number : Int64), ScansAlone "0x7fffFFFFffffFFFF" (.ok token) ∧
      token.kind = .number ∧ token.lexeme = "0x7fffFFFFffffFFFF" ∧
      token.literal = some (.int number) ∧ number.toInt = 9223372036854775807) ∧
    (∃ expression, parseExpression "-9223372036854775807" = .ok expression ∧
      ∀ fuel machine, evaluate (fuel + 2) expression machine =
        (.done (.int (-9223372036854775807)), machine)) ∧
    ∀ paren machine, ∃ line,
      callNative .inHex [.int 9223372036854775807] paren machine =
          (.done .nil, machine.printLine line) ∧
        ∃ token, ScansAlone ("0x" ++ line) (.ok token) ∧ token.kind = .number ∧
          token.literal = some (.int 9223372036854775807) := by
  obtain ⟨decimal, hexadecimal, written, _, printed⟩ := number_literals_read_exactly
  refine ⟨?_, ?_, ?_, printed 9223372036854775807 (by decide)⟩
  · have reads := decimal "009223372036854775808".toList (by decide) (by simp)
    have value : Nat.ofDigits 10 (Text.digitValues "009223372036854775808".toList).reverse =
        9223372036854775808 := by decide +kernel
    rwa [value, ReadsAsNumber, if_neg (by decide), String.ofList_toList] at reads
  · have reads := hexadecimal "7fffFFFFffffFFFF".toList (by decide) (by simp [Text.IsHexadecimal])
    have value : Nat.ofDigits 16 (Text.digitValues "7fffFFFFffffFFFF".toList).reverse =
        9223372036854775807 := by decide +kernel
    rwa [value, ReadsAsNumber, if_pos (by decide)] at reads
  · exact (written (-9223372036854775807) (by decide)).2

end TinyScript
