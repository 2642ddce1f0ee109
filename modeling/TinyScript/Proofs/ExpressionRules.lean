import TinyScript.Syntax.Expression
import TinyScript.Proofs.CleanStep

/-! What each rule of the expression grammar reads cleanly, in terms of the rules it calls. -/
namespace TinyScript

/-- Whether the first token is of a wanted kind. -/
def starts (wanted : TokenKind → Bool) (tokens : List Token) : Bool :=
  tokens.head?.any fun token => wanted token.kind

@[simp]
theorem starts_cons (wanted : TokenKind → Bool) (token : Token) (rest : List Token) :
    starts wanted (token :: rest) = wanted token.kind := rfl

theorem startsWith_eq_starts (kind : TokenKind) (tokens : List Token) :
    startsWith kind tokens = starts (· == kind) tokens := by
  cases tokens <;> rfl

/-- A choice by the first token reads what the branch for that token reads. -/
theorem reads_take {wanted : TokenKind → Bool} {tokens rest : List Token} {limit : Nat} {α : Type}
    {absent : Step limit α} {present : Taken tokens → Step limit α} {value : α} :
    (match take? wanted tokens with
      | none => absent
      | some taken => present taken).Reads value rest ↔
      (starts wanted tokens = false ∧ absent.Reads value rest) ∨
        ∃ token more, ∃ front : tokens = token :: more, wanted token.kind = true ∧
          (present ⟨token, more, front ▸ Nat.lt_succ_self _⟩).Reads value rest := by
  cases tokens with
  | nil => simp [take?, starts]
  | cons token more =>
    cases fits : wanted token.kind with
    | false =>
      simp only [take?, fits, Bool.false_eq_true, ↓reduceIte, starts_cons, true_and]
      constructor
      · exact Or.inl
      · intro found
        rcases found with reads | ⟨_, _, same, wrong, _⟩
        · exact reads
        · obtain ⟨rfl, rfl⟩ := List.cons.inj same
          simp [fits] at wrong
    | true =>
      simp only [take?, fits, ↓reduceIte, starts_cons, Bool.true_eq_false, false_and, false_or]
      constructor
      · exact fun reads => ⟨token, more, rfl, fits, reads⟩
      · intro found
        obtain ⟨_, _, same, _, reads⟩ := found
        obtain ⟨rfl, rfl⟩ := List.cons.inj same
        exact reads

/-- The same for a choice that names the wanted token first. -/
theorem reads_take_or {wanted : TokenKind → Bool} {tokens rest : List Token} {limit : Nat}
    {α : Type} {present : Taken tokens → Step limit α} {absent : Step limit α} {value : α} :
    (match take? wanted tokens with
      | some taken => present taken
      | none => absent).Reads value rest ↔
      (starts wanted tokens = false ∧ absent.Reads value rest) ∨
        ∃ token more, ∃ front : tokens = token :: more, wanted token.kind = true ∧
          (present ⟨token, more, front ▸ Nat.lt_succ_self _⟩).Reads value rest := by
  rw [← reads_take]
  cases take? wanted tokens <;> rfl

/-- Kinds of tokens that are an expression on their own. -/
def isAtom : TokenKind → Bool
  | .keyword .falseWord | .keyword .trueWord | .keyword .nilWord => true
  | .number | .string | .bytes | .identifier => true
  | _ => false

/-- The expression that a single token stands for. -/
def Expr.ofAtom (token : Token) : Expr :=
  match token.kind with
  | .keyword .falseWord => .literal (.bool false)
  | .keyword .trueWord => .literal (.bool true)
  | .keyword .nilWord => .literal .nil
  | .identifier => .var token
  | _ => .literal (.ofToken token)

theorem reads_assignment {left value node : Expr} {equals : Token} {limit : Nat}
    {rest more : List Token} {shorter : rest.length < limit} :
    (Step.ok (assignment left equals value).1 (assignment left equals value).2 rest shorter).Reads
        node more ↔
      ∃ name, left = .var name ∧ node = .assign name value ∧ rest = more := by
  cases left <;> simp [assignment, eq_comm]

theorem reads_incremented {target node : Expr} {sign : Token} {limit : Nat}
    {rest more : List Token} {shorter : rest.length < limit} :
    (Step.ok (incremented target sign).1 (incremented target sign).2 rest shorter).Reads node more ↔
      ∃ name, target = .var name ∧ node = .increment name sign ∧ rest = more := by
  cases target <;> simp [incremented, eq_comm]

@[simp]
theorem lengthErrors_eq_nil {cause : SyntaxCause} {count : Nat} {next : Token} :
    lengthErrors cause count next = [] ↔ count < listLimit := by
  simp [lengthErrors]

namespace Grammar

variable {final : Token} {tokens rest : List Token} {value : Expr}

theorem reads_expression :
    (expression final tokens).Reads value rest ↔
      ∃ left middle, (chain final .disjunction tokens).Reads left middle ∧
        ((starts (· == .assign) middle = false ∧ left = value ∧ middle = rest) ∨
          ∃ equals more name assigned, middle = equals :: more ∧ equals.kind = .assign ∧
            left = .var name ∧ value = .assign name assigned ∧
            (expression final more).Reads assigned rest) := by
  rw [expression, Step.reads_bind]
  constructor
  · intro found
    obtain ⟨left, middle, shorter, front, choice⟩ := found
    refine ⟨left, middle, front, ?_⟩
    rcases reads_take.1 choice with ⟨stop, reads⟩ | ⟨equals, more, rfl, isAssign, reads⟩
    · left
      simpa [stop] using reads
    · right
      simp only [Step.reads_bind, Step.reads_behind, Taken.reads_carry, reads_assignment] at reads
      obtain ⟨assigned, _, _, reads, name, target, node, rfl⟩ := reads
      exact ⟨equals, more, name, assigned, rfl, by simpa using isAssign, target, node, reads⟩
  · rintro ⟨left, middle, front, ⟨stop, rfl, rfl⟩ | ⟨equals, more, name, assigned, rfl, isAssign,
      rfl, rfl, reads⟩⟩
    · refine ⟨left, middle, front.length_lt, front, reads_take.2 (.inl ⟨stop, ?_⟩)⟩
      simp
    · refine ⟨.var name, equals :: more, front.length_lt, front,
        reads_take.2 (.inr ⟨equals, more, rfl, by simp [isAssign], ?_⟩)⟩
      simp only [Step.reads_bind, Step.reads_behind, Taken.reads_carry, reads_assignment]
      have shorter := reads.length_lt
      have smaller := front.length_lt
      refine ⟨assigned, rest, ?_, reads, name, rfl, rfl, rfl⟩
      simp only [List.length_cons] at smaller
      omega

theorem reads_chain {level : Level} :
    (chain final level tokens).Reads value rest ↔
      ∃ left middle, (operand final level tokens).Reads left middle ∧
        (chainRest final level left middle).Reads value rest := by
  rw [chain, Step.reads_bind]
  constructor
  · intro found
    obtain ⟨left, middle, _, front, reads⟩ := found
    exact ⟨left, middle, front, Step.reads_lift.1 reads⟩
  · intro found
    obtain ⟨left, middle, front, reads⟩ := found
    exact ⟨left, middle, front.length_lt, front, Step.reads_lift.2 reads⟩

theorem reads_chainRest {level : Level} {left : Expr} :
    (chainRest final level left tokens).Reads value rest ↔
      (starts level.joins tokens = false ∧ left = value ∧ tokens = rest) ∨
        ∃ operator more right middle, tokens = operator :: more ∧
          level.joins operator.kind = true ∧ (operand final level more).Reads right middle ∧
          (chainRest final level (level.join left operator right) middle).Reads value rest := by
  rw [chainRest]
  constructor
  · intro choice
    rcases reads_take.1 choice with ⟨stop, reads⟩ | ⟨operator, more, rfl, fits, reads⟩
    · left
      simpa [stop] using reads
    · right
      simp only [Step.reads_weaken, Step.reads_bind, Taken.reads_carry, Step.reads_lift] at reads
      obtain ⟨right, middle, _, front, reads⟩ := reads
      exact ⟨operator, more, right, middle, rfl, fits, front, reads⟩
  · intro found
    rcases found with ⟨stop, rfl, rfl⟩ | ⟨operator, more, right, middle, rfl, fits, front, reads⟩
    · exact reads_take.2 (.inl ⟨stop, by simp⟩)
    · refine reads_take.2 (.inr ⟨operator, more, rfl, fits, ?_⟩)
      simp only [Step.reads_weaken, Step.reads_bind, Taken.reads_carry, Step.reads_lift]
      have shorter := front.length_lt
      exact ⟨right, middle, by simp only [List.length_cons]; omega, front, reads⟩

theorem operand_eq_chain {level next : Level} (tighter : level.tighter? = some next) :
    operand final level tokens = chain final next tokens := by
  rw [operand]
  split
  · next other found =>
    obtain rfl : other = next := Option.some.inj (found.symm.trans tighter)
    rfl
  · next missing => simp [missing] at tighter

theorem operand_factor : operand final .factor tokens = unary final tokens := by
  rw [operand]
  split
  · next other found => simp [Level.tighter?] at found
  · rfl

theorem reads_unary :
    (unary final tokens).Reads value rest ↔
      (starts isSign tokens = false ∧ (call final tokens).Reads value rest) ∨
        ∃ operator more right, tokens = operator :: more ∧ isSign operator.kind = true ∧
          (unary final more).Reads right rest ∧ value = .unary operator right := by
  rw [unary]
  constructor
  · intro choice
    rcases reads_take.1 choice with ⟨stop, reads⟩ | ⟨operator, more, rfl, fits, reads⟩
    · exact .inl ⟨stop, reads⟩
    · simp only [Taken.reads_carry, Step.reads_map] at reads
      obtain ⟨right, reads, same⟩ := reads
      exact .inr ⟨operator, more, right, rfl, fits, reads, same.symm⟩
  · intro found
    rcases found with ⟨stop, reads⟩ | ⟨operator, more, right, rfl, fits, reads, rfl⟩
    · exact reads_take.2 (.inl ⟨stop, reads⟩)
    · refine reads_take.2 (.inr ⟨operator, more, rfl, fits, ?_⟩)
      simp only [Taken.reads_carry, Step.reads_map]
      exact ⟨right, reads, rfl⟩

theorem reads_call :
    (call final tokens).Reads value rest ↔
      ∃ callee middle, (increment final tokens).Reads callee middle ∧
        (callRest final callee middle).Reads value rest := by
  rw [call, Step.reads_bind]
  constructor
  · intro found
    obtain ⟨callee, middle, _, front, reads⟩ := found
    exact ⟨callee, middle, front, Step.reads_lift.1 reads⟩
  · intro found
    obtain ⟨callee, middle, front, reads⟩ := found
    exact ⟨callee, middle, front.length_lt, front, Step.reads_lift.2 reads⟩

theorem reads_callRest {callee : Expr} :
    (callRest final callee tokens).Reads value rest ↔
      (starts (· == .leftParen) tokens = false ∧ callee = value ∧ tokens = rest) ∨
        ∃ opening more values closing behind, tokens = opening :: more ∧
          opening.kind = .leftParen ∧ (arguments final more).Reads values (closing :: behind) ∧
          closing.kind = .rightParen ∧
          (callRest final (.call callee closing values) behind).Reads value rest := by
  rw [callRest]
  constructor
  · intro choice
    rcases reads_take.1 choice with ⟨stop, reads⟩ | ⟨opening, more, rfl, fits, reads⟩
    · left
      simpa [stop] using reads
    · right
      simp only [Step.reads_weaken, Step.reads_bind, Step.reads_lift, Step.reads_behind,
        reads_expect] at reads
      obtain ⟨values, _, _, front, closing, behind, _, ⟨rfl, isClosing⟩, reads⟩ := reads
      exact ⟨opening, more, values, closing, behind, rfl, by simpa using fits, front, isClosing,
        reads⟩
  · rintro (⟨stop, rfl, rfl⟩ | ⟨opening, more, values, closing, behind, rfl, isOpening, front,
      isClosing, reads⟩)
    · exact reads_take.2 (.inl ⟨stop, by simp⟩)
    · refine reads_take.2 (.inr ⟨opening, more, rfl, by simp [isOpening], ?_⟩)
      simp only [Step.reads_weaken, Step.reads_bind, Step.reads_lift, Step.reads_behind,
        reads_expect]
      have shorter := front.length_lt
      simp only [List.length_cons] at shorter
      exact ⟨values, closing :: behind, by simp only [List.length_cons]; omega, front, closing,
        behind, by simp only [List.length_cons]; omega, ⟨rfl, isClosing⟩, reads⟩

theorem reads_arguments {values : List Expr} :
    (arguments final tokens).Reads values rest ↔
      (starts (· == .rightParen) tokens = true ∧ values = [] ∧ tokens = rest) ∨
        (starts (· == .rightParen) tokens = false ∧ values.length < listLimit ∧
          (argumentList final tokens).Reads values rest) := by
  rw [arguments, startsWith_eq_starts]
  cases starts (· == .rightParen) tokens with
  | true => simp [eq_comm]
  | false =>
    simp only [Bool.false_eq_true, ↓reduceIte, Step.reads_weaken, Step.reads_bind, Step.reads_ok,
      lengthErrors_eq_nil, false_and, true_and, false_or]
    constructor
    · intro found
      obtain ⟨_, _, _, reads, rfl, short, rfl⟩ := found
      exact ⟨short, reads⟩
    · intro found
      obtain ⟨short, reads⟩ := found
      exact ⟨values, rest, reads.length_lt, reads, rfl, short, rfl⟩

theorem reads_argumentList {values : List Expr} :
    (argumentList final tokens).Reads values rest ↔
      ∃ first middle, (expression final tokens).Reads first middle ∧
        ((starts (· == .comma) middle = false ∧ values = [first] ∧ middle = rest) ∨
          ∃ comma more others, middle = comma :: more ∧ comma.kind = .comma ∧
            (argumentList final more).Reads others rest ∧ values = first :: others) := by
  rw [argumentList, Step.reads_bind]
  constructor
  · intro found
    obtain ⟨first, middle, shorter, front, choice⟩ := found
    refine ⟨first, middle, front, ?_⟩
    rcases reads_take.1 choice with ⟨stop, reads⟩ | ⟨comma, more, rfl, fits, reads⟩
    · left
      simpa [stop, eq_comm] using reads
    · right
      simp only [Step.reads_behind, Taken.reads_carry, Step.reads_map] at reads
      obtain ⟨others, reads, same⟩ := reads
      exact ⟨comma, more, others, rfl, by simpa using fits, reads, same.symm⟩
  · rintro ⟨first, middle, front, ⟨stop, rfl, rfl⟩ | ⟨comma, more, others, rfl, isComma, reads,
      rfl⟩⟩
    · exact ⟨first, middle, front.length_lt, front, reads_take.2 (.inl ⟨stop, by simp⟩)⟩
    · refine ⟨first, comma :: more, front.length_lt, front,
        reads_take.2 (.inr ⟨comma, more, rfl, by simp [isComma], ?_⟩)⟩
      simp only [Step.reads_behind, Taken.reads_carry, Step.reads_map]
      exact ⟨others, reads, rfl⟩

theorem reads_increment :
    (increment final tokens).Reads value rest ↔
      ∃ target middle, (primary final tokens).Reads target middle ∧
        ((starts isIncrement middle = false ∧ target = value ∧ middle = rest) ∨
          ∃ sign name, middle = sign :: rest ∧ isIncrement sign.kind = true ∧
            target = .var name ∧ value = .increment name sign) := by
  rw [increment, Step.reads_bind]
  constructor
  · intro found
    obtain ⟨target, middle, shorter, front, choice⟩ := found
    refine ⟨target, middle, front, ?_⟩
    rcases reads_take.1 choice with ⟨stop, reads⟩ | ⟨sign, more, rfl, fits, reads⟩
    · left
      simpa [stop] using reads
    · right
      obtain ⟨name, isName, node, rfl⟩ := reads_incremented.1 reads
      exact ⟨sign, name, rfl, fits, isName, node⟩
  · intro found
    obtain ⟨target, middle, front, ⟨stop, rfl, rfl⟩ | ⟨sign, name, rfl, fits, rfl, rfl⟩⟩ := found
    · exact ⟨target, middle, front.length_lt, front, reads_take.2 (.inl ⟨stop, by simp⟩)⟩
    · exact ⟨.var name, sign :: rest, front.length_lt, front, reads_take.2
        (.inr ⟨sign, rest, rfl, fits, reads_incremented.2 ⟨name, rfl, rfl, rfl⟩⟩)⟩

theorem primary_atom {token : Token} (atomic : isAtom token.kind = true) :
    primary final (token :: rest) = .done (.ofAtom token) rest := by
  rw [primary.eq_def]
  dsimp only
  split <;> simp_all [isAtom, Expr.ofAtom]

theorem primary_group {opening : Token} (grouped : opening.kind = .leftParen) :
    primary final (opening :: rest) =
      Step.weaken ((expression final rest).andThen fun inner rest =>
        (expect final .rightParen "')' after expression" rest).map fun _ => .grouping inner) := by
  rw [primary.eq_def]
  simp only [grouped]

/-- No other token starts an expression. -/
theorem primary_other {token : Token} (compound : isAtom token.kind = false)
    (bare : token.kind ≠ .leftParen) :
    primary final (token :: rest) =
      .fail ⟨.expectedExpression, token⟩ [] (token :: rest) (Nat.le_refl _) := by
  rw [primary.eq_def]
  dsimp only
  split <;> simp_all [isAtom]

theorem reads_primary :
    (primary final tokens).Reads value rest ↔
      (∃ token, tokens = token :: rest ∧ isAtom token.kind = true ∧ value = .ofAtom token) ∨
        ∃ opening more inner closing, tokens = opening :: more ∧ opening.kind = .leftParen ∧
          (expression final more).Reads inner (closing :: rest) ∧ closing.kind = .rightParen ∧
          value = .grouping inner := by
  constructor
  · intro reads
    cases tokens with
    | nil => simp [primary] at reads
    | cons token more =>
      cases atomic : isAtom token.kind with
      | true =>
        rw [primary_atom atomic, Step.reads_done] at reads
        obtain ⟨rfl, rfl⟩ := reads
        exact .inl ⟨token, rfl, atomic, rfl⟩
      | false =>
        by_cases grouped : token.kind = .leftParen
        · simp only [primary_group grouped, Step.reads_weaken, Step.reads_andThen, Step.reads_map,
            reads_expect] at reads
          obtain ⟨inner, _, reads, closing, ⟨rfl, isClosing⟩, same⟩ := reads
          exact .inr ⟨token, more, inner, closing, rfl, grouped, reads, isClosing, same.symm⟩
        · simp [primary_other atomic grouped] at reads
  · rintro (⟨token, rfl, atomic, rfl⟩ | ⟨opening, more, inner, closing, rfl, grouped, reads,
      isClosing, rfl⟩)
    · rw [primary_atom atomic, Step.reads_done]
      exact ⟨rfl, rfl⟩
    · simp only [primary_group grouped, Step.reads_weaken, Step.reads_andThen, Step.reads_map,
        reads_expect]
      exact ⟨inner, closing :: rest, reads, closing, ⟨rfl, isClosing⟩, rfl⟩

end Grammar

end TinyScript
