import TinyScript.Proofs.LikeRun

/-! Positions never matter: where the tokens of a program stand in its source, and how those that
are not names are spelled, has no influence on what it does. -/
namespace TinyScript

/-- Tokens that differ at most in where they stand. -/
structure Token.SameName (name other : Token) : Prop where
  kind : name.kind = other.kind
  lexeme : name.lexeme = other.lexeme
  literal : name.literal = other.literal

/-- Tokens that differ at most in where they stand and how they are spelled. -/
structure Token.SameMark (mark other : Token) : Prop where
  kind : mark.kind = other.kind
  literal : mark.literal = other.literal

/-- Like tokens may stand anywhere. -/
def Likeness.anywhere : Likeness where
  names := Token.SameName
  marks := Token.SameMark
  lexeme_eq same := same.lexeme
  kind_eq same := same.kind

theorem Likeness.anywhere_reflexive : anywhere.Reflexive where
  names _ := ⟨rfl, rfl, rfl⟩
  marks _ := ⟨rfl, rfl⟩

/-- Every scope is seen, with like tokens in the functions it binds. -/
def View.anywhere : View := Likeness.anywhere.everywhere

/-- The same trees but for the positions of their tokens and the spelling of marks. -/
abbrev Expr.Similar : Expr → Expr → Prop := Expr.Like Likeness.anywhere

@[inherit_doc Expr.Similar]
abbrev Stmt.Similar : Stmt → Stmt → Prop := Stmt.Like Likeness.anywhere

/-- The same scopes with the same names, bound to the same values but for the positions inside
functions; the same current scope, depth, output and clock. -/
abbrev Machine.Similar : Machine → Machine → Prop := Machine.Like View.anywhere

theorem Machine.Similar.refl (machine : Machine) : machine.Similar machine :=
  Machine.Like.refl Likeness.anywhere_reflexive machine

/-- On similar machines, similar expressions, statements, statement lists and programs end alike
with the same number of steps: with the same value or flow up to positions, with the same error at
the same token up to positions, or without an end; and the machines they leave are similar. -/
theorem positions_have_no_influence (fuel : Nat) {machine machine' : Machine}
    (machines : machine.Similar machine') :
    (∀ expression expression' : Expr, expression.Similar expression' →
      (evaluate fuel expression machine).1.Like Likeness.anywhere (Value.Like View.anywhere)
        (evaluate fuel expression' machine').1 ∧
      (evaluate fuel expression machine).2.Similar (evaluate fuel expression' machine').2) ∧
    (∀ statement statement' : Stmt, statement.Similar statement' →
      (execute fuel statement machine).1.Like Likeness.anywhere (Flow.Like View.anywhere)
        (execute fuel statement' machine').1 ∧
      (execute fuel statement machine).2.Similar (execute fuel statement' machine').2) ∧
    (∀ statements statements' : List Stmt, List.Forall₂ Stmt.Similar statements statements' →
      (Run.sequence (execute fuel) statements machine).1.Like Likeness.anywhere
          (Flow.Like View.anywhere) (Run.sequence (execute fuel) statements' machine').1 ∧
        (Run.sequence (execute fuel) statements machine).2.Similar
          (Run.sequence (execute fuel) statements' machine').2) ∧
    (∀ statements statements' : List Stmt, List.Forall₂ Stmt.Similar statements statements' →
      (interpret fuel statements machine).1.Like Likeness.anywhere Eq
          (interpret fuel statements' machine').1 ∧
        (interpret fuel statements machine).2.Similar (interpret fuel statements' machine').2) := by
  obtain ⟨values, flows⟩ := Run.Like.evaluation View.anywhere fuel
  refine ⟨?_, ?_, ?_, ?_⟩
  · intro expression expression' same
    exact values _ _ same machines
  · intro statement statement' same
    exact flows _ _ same machines
  · intro statements statements' same
    exact Run.Like.program fuel same machines
  · intro statements statements' same
    exact Run.Like.interpret fuel same machines

private def stampAt (line : UInt32) (kind : TokenKind) (lexeme : String) : Token :=
  { kind, lexeme, line, span := ⟨line.toNat, line.toNat + lexeme.length⟩ }

/-- Declares a function that divides by zero and calls it, all on one line. -/
private def division (line : UInt32) (slash : String) : List Stmt :=
  [.function (stampAt line .identifier "half") [stampAt line .identifier "n"]
      [.ret (stampAt line (.keyword .returnWord) "return")
        (some (.binary (.var (stampAt line .identifier "n")) (stampAt line .slash slash)
          (.literal (.int 0))))],
    .expression (.call (.var (stampAt line .identifier "half")) (stampAt line .rightParen ")")
      [.literal (.int 4)])]

private theorem division_similar (line line' : UInt32) (slash slash' : String) :
    List.Forall₂ Stmt.Similar (division line slash) (division line' slash') := by
  have name (lexeme : String) : Likeness.anywhere.names (stampAt line .identifier lexeme)
      (stampAt line' .identifier lexeme) := ⟨rfl, rfl, rfl⟩
  have mark (kind : TokenKind) (lexeme lexeme' : String) :
      Likeness.anywhere.marks (stampAt line kind lexeme) (stampAt line' kind lexeme') := ⟨rfl, rfl⟩
  have quotient := Expr.Like.binary (.var (name "n")) (mark .slash slash slash')
    (.literal (.int 0))
  have called := Expr.Like.call (.var (name "half")) (mark .rightParen ")" ")")
    (.cons (.literal (.int 4)) .nil)
  exact .cons (.function (name "half") (.cons (name "n") .nil)
    (.cons (.ret (mark (.keyword .returnWord) "return" "return") (.some quotient)) .nil))
    (.cons (.expression called) .nil)

/-- On line 1 or line 7, with one sign or another: both programs fail at their division, and run
once more, on machines that differ by then, both fail at their declaration. -/
theorem division_fails_anywhere :
    let early := interpret 9 (division 1 "/") (Machine.start fun _ => 0)
    let late := interpret 9 (division 7 "div") (Machine.start fun _ => 0)
    List.Forall₂ Stmt.Similar (division 1 "/") (division 7 "div") ∧
      early.1 = .failed ⟨.divisionByZero, stampAt 1 .slash "/"⟩ ∧
      late.1 = .failed ⟨.divisionByZero, stampAt 7 .slash "div"⟩ ∧
      early.2.Similar late.2 ∧
      (interpret 9 (division 1 "/") early.2).1 =
        .failed ⟨.alreadyInUse "half", stampAt 1 .identifier "half"⟩ ∧
      (interpret 9 (division 7 "div") late.2).1 =
        .failed ⟨.alreadyInUse "half", stampAt 7 .identifier "half"⟩ ∧
      (interpret 9 (division 1 "/") early.2).2.Similar (interpret 9 (division 7 "div") late.2).2 := by
  intro early late
  have similar := division_similar 1 7 "/" "div"
  obtain ⟨_, _, _, alike⟩ :=
    positions_have_no_influence 9 (Machine.Similar.refl (Machine.start fun _ => 0))
  have machines : early.2.Similar late.2 := (alike _ _ similar).2
  obtain ⟨_, _, _, again⟩ := positions_have_no_influence 9 machines
  exact ⟨similar, rfl, rfl, machines, rfl, rfl, (again _ _ similar).2⟩

end TinyScript
