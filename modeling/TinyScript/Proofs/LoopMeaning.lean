import TinyScript.Proofs.ForLoop
import TinyScript.Proofs.NoLeaks
import TinyScript.Proofs.StatementRules
import TinyScript.Proofs.StatementShape

/-! The meaning of `for` loops. Whatever loop is parsed, running it has the effects of the loop read
directly, from any machine that a program can bring about; the scopes opened on the way only to spell
it out never hold a name. -/
namespace TinyScript

namespace Stmt

/-- Only declarations, which the grammar keeps out of branches and loops, declare names where they
stand. -/
theorem declaresNone_of_wellShaped {statement : Stmt} (shape : statement.wellShaped = true)
    (plain : statement.isDeclaration = false) : statement.declaresNone = true := by
  induction statement using Stmt.declaresNone.induct with
  | case1 | case2 => cases plain
  | case3 condition consequent ih =>
    simp only [wellShaped, Bool.and_eq_true, Bool.not_eq_true'] at shape
    exact ih shape.2 shape.1.2
  | case4 condition consequent alternative ih ih' =>
    simp only [wellShaped, Bool.and_eq_true, Bool.not_eq_true'] at shape
    obtain ⟨⟨⟨⟨⟨_, plainly⟩, _⟩, first⟩, plainly'⟩, second⟩ := shape
    exact Bool.and_eq_true_iff.2 ⟨ih first plainly, ih' second plainly'⟩
  | case5 condition body ih =>
    simp only [wellShaped, Bool.and_eq_true, Bool.not_eq_true'] at shape
    exact ih shape.2 shape.1.2
  | _ => rfl

end Stmt

/-- A statement read without an error, and not as a declaration, declares nothing where it stands. -/
theorem Grammar.declaresNone_of_reads {final : Token} {tokens rest : List Token} {statement : Stmt}
    (reads : (Grammar.statement final tokens).Reads statement rest) :
    statement.declaresNone = true := by
  have gives : (Grammar.statement final tokens).Gives (fun _ => True) (Stmt.Stands fun _ => True) :=
    statement_stands trivial tokens fun _ _ => trivial
  obtain ⟨shorter, same⟩ := reads
  rw [same] at gives
  cases gives with
  | ok stands _ _ => exact Stmt.declaresNone_of_wellShaped stands.fits.shape stands.plain

/-- No name is bound in the scope. -/
def Heap.Unbound (heap : Heap) (scope : ScopeId) : Prop := ∀ name, ¬ heap.Binds scope name

theorem Heap.unbound_of_absent {heap : Heap} {scope : ScopeId} (absent : heap.scopes.size ≤ scope) :
    heap.Unbound scope := by
  intro name bound
  rw [Binds, local?, Array.getElem?_eq_none absent] at bound
  cases bound

/-- A block of statements that declare nothing opens a scope that no name is bound in at any moment. -/
theorem unbound_in_block (fuel : Nat) {statements : List Stmt}
    (silent : ∀ statement ∈ statements, statement.declaresNone = true) (machine : Machine) :
    ∀ passed ∈ (Traced.execute fuel (.block statements)).history machine,
      passed.heap.Unbound machine.heap.scopes.size := by
  have before : machine.heap.Unbound machine.heap.scopes.size := Heap.unbound_of_absent (Nat.le_refl _)
  cases fuel with
  | zero => exact List.forall_mem_singleton.2 before
  | succ fuel =>
    let opened := { machine with heap := (machine.heap.addScope (some machine.scope)).2 }
    have fresh : opened.heap.Unbound machine.heap.scopes.size :=
      fun name bound => before name ((Heap.binds_addScope ..).1 bound)
    have present : machine.heap.scopes.size < opened.heap.scopes.size := by
      simp [opened, Heap.addScope]
    let regime := Regime.sparing opened fun _ => False
    have holds := Regime.sparing_holds opened fun _ => False
    have kept : regime.Kept regime.flows opened
        (Traced.inScope machine.heap.scopes.size (Traced.sequence (Traced.execute fuel) statements)
          opened) := by
      refine .inScope holds trivial (regime.kept_sequence fuel ⟨holds.heap, trivial⟩ ?_)
      exact fun statement member => .inl (silent statement member)
    intro passed among
    rcases List.mem_cons.1 among with rfl | among
    · exact before
    rcases List.mem_cons.1 among with rfl | among
    · exact fresh
    · intro name bound
      exact fresh name ((kept.passed passed among).heap.2.only _ present id name bound)

/-- Nor is a name ever bound in a scope by what is run in other scopes. -/
theorem unbound_elsewhere (fuel : Nat) (statement : Stmt) {machine : Machine} {scope : ScopeId}
    (present : scope < machine.heap.scopes.size) (elsewhere : scope ≠ machine.scope)
    (unbound : machine.heap.Unbound scope) :
    ∀ passed ∈ (Traced.execute fuel statement).history machine, passed.heap.Unbound scope := by
  let regime := Regime.sparing machine (· = machine.scope)
  have kept := (regime.kept_evaluation fuel).2 statement machine (Regime.sparing_holds machine _)
    (.inr (.inl rfl))
  intro passed among name bound
  exact unbound name ((kept.passed passed among).heap.2.only scope present elsewhere name bound)

/-- Two runs from one machine that a program cannot tell apart. They end alike and print the same, the
scopes that were there bind the same names to values that stand for each other, and of what was made
since the one heap only has empty scopes more than the other. -/
structure Padding.Unnoticed (padding : Padding) (before : Machine)
    (ended other : Outcome RuntimeError Flow × Machine) : Prop where
  outcome : ended.1.Same (Flow.Stands padding ended.2.heap) other.1
  output : ended.2.output = other.2.output
  clock : ended.2.clock = other.2.clock
  place : ended.2.scope = before.scope ∧ other.2.scope = before.scope
  level : ended.2.depth = other.2.depth
  kept : ∀ id < before.heap.scopes.size, padding.stands id = id ∧ padding.own id = id
  values : ∀ id < before.heap.scopes.size, ∀ name,
    other.2.heap.local? id name =
      (ended.2.heap.local? id name).map (Value.renumber padding.stands)
  heap : ended.2.heap.Padded padding other.2.heap

theorem Padding.Alike.unnoticed {machine : Machine} {ended other : Outcome RuntimeError Flow × Machine}
    (joined : machine.Padded .none machine)
    (alike : Padding.none.Alike Flow.Stands machine machine ended other) :
    ∃ padding : Padding, padding.Unnoticed machine ended other := by
  obtain ⟨after, leads, outcome⟩ := alike
  refine ⟨after, outcome, leads.joined.output, leads.joined.clock, ⟨leads.scope, leads.place joined⟩,
    leads.joined.depth, fun id old => ⟨leads.stands id old, leads.own id old⟩, ?_, leads.joined.heap⟩
  intro id old name
  have own := leads.isOwn joined old rfl
  have same := leads.joined.heap.local?_own (Nat.lt_of_lt_of_le old leads.grows.scopes) own name
  rw [leads.stands id old] at same
  exact same

theorem Machine.Padded.refl {machine : Machine} (holds : Regime.grounded.Holds machine) :
    machine.Padded .none machine where
  heap := .refl machine.heap
  grounded := holds
  plainly := holds.heap
  scope := rfl
  globals := rfl
  depth := rfl
  output := rfl
  clock := rfl

theorem Outcome.Same.ends {α β : Type} {values : α → β → Prop} {outcome : Outcome RuntimeError α}
    {other : Outcome RuntimeError β} (same : outcome.Same values other) :
    outcome = .exhausted ↔ other = .exhausted := by
  cases same <;> simp

section Meaning

variable {machine : Machine} (holds : Regime.grounded.Holds machine)
variable (header : ForHeader) {body : Stmt} (silent : body.declaresNone = true) (fuel : Nat)
include holds silent

theorem spelled_then_direct :
    (execute fuel (header.loop body) machine).2.PrintsOn (header.direct body fuel machine).2 ∧
      ((execute fuel (header.loop body) machine).1 ≠ .exhausted → ∃ padding : Padding,
        padding.Unnoticed machine (execute fuel (header.loop body) machine)
          (header.direct body fuel machine)) := by
  have joined := Machine.Padded.refl holds
  have alike := Padding.Alike.loop header silent fuel joined
  have extended := header.bare_extended body fuel
  obtain ⟨after, leads, same⟩ := alike
  refine ⟨?_, fun ends => ?_⟩
  · obtain ⟨more, printed⟩ := extended.ahead machine
    exact ⟨more, by rw [printed, leads.joined.output]⟩
  · rw [extended.same machine fun stops => ends (same.ends.2 stops)]
    exact Padding.Alike.unnoticed joined ⟨after, leads, same⟩

theorem direct_then_spelled :
    (header.direct body fuel machine).2.PrintsOn (execute (fuel + 3) (header.loop body) machine).2 ∧
      ((header.direct body fuel machine).1 ≠ .exhausted → ∃ padding : Padding,
        padding.Unnoticed machine (execute (fuel + 3) (header.loop body) machine)
          (header.direct body fuel machine)) := by
  have joined := Machine.Padded.refl holds
  have alike := Padding.Alike.loop header silent (fuel + 3) joined
  have extended := header.direct_extended body fuel
  obtain ⟨after, leads, same⟩ := alike
  refine ⟨?_, fun ends => ?_⟩
  · obtain ⟨more, printed⟩ := extended.ahead machine
    exact ⟨more, by rw [leads.joined.output, printed]⟩
  · rw [← extended.same machine ends]
    exact Padding.Alike.unnoticed joined ⟨after, leads, same⟩

end Meaning

/-- `for` loops mean what they say. Let a loop be read without an error, with a header and a body. Run
from any machine that a program can bring about, it does what its direct reading does: each of the two
ends if the other does, with no difference that a program could notice, and one that goes on has printed
part of what the other prints. The scope that a turn opens around the body and the increment never holds
a name: none is bound there while the turn lasts, nor by what is run in other scopes. -/
theorem for_loops_run_as_meant {final first : Token} {tokens rest : List Token} {statement : Stmt}
    (isFor : first.kind = .keyword .forWord)
    (reads : (Grammar.statement final (first :: tokens)).Reads statement rest) :
    ∃ header middle body, (Grammar.forHeader final tokens).Reads header middle ∧
      (Grammar.statement final middle).Reads body rest ∧ statement = header.loop body ∧
      (∀ (readings : Nat → Int64) (machine : Machine), machine.Reachable readings → ∀ fuel,
        let spelled := execute fuel statement machine
        let meant := header.direct body fuel machine
        let longer := execute (fuel + 3) statement machine
        spelled.2.PrintsOn meant.2 ∧ meant.2.PrintsOn longer.2 ∧
          (spelled.1 ≠ .exhausted → ∃ padding : Padding, padding.Unnoticed machine spelled meant) ∧
          (meant.1 ≠ .exhausted → ∃ padding : Padding, padding.Unnoticed machine longer meant)) ∧
      ∀ increment, header.increment = some increment → ∀ machine : Machine,
        let turnScope := machine.heap.scopes.size
        (∀ fuel, ∀ passed ∈ (Traced.execute fuel (.block [body, .expression increment])).history machine,
          passed.heap.Unbound turnScope) ∧
        ∀ (later : Machine) (fuel : Nat) (other : Stmt), turnScope < later.heap.scopes.size →
          turnScope ≠ later.scope → later.heap.Unbound turnScope →
          ∀ passed ∈ (Traced.execute fuel other).history later, passed.heap.Unbound turnScope := by
  obtain ⟨header, middle, body, heads, bodily, rfl⟩ := (Grammar.reads_for isFor).1 reads
  have silent := Grammar.declaresNone_of_reads bodily
  refine ⟨header, middle, body, heads, bodily, rfl, ?_, ?_⟩
  · intro readings machine reachable fuel
    obtain ⟨ahead, ended⟩ := spelled_then_direct reachable.grounded header silent fuel
    obtain ⟨behind, meant⟩ := direct_then_spelled reachable.grounded header silent fuel
    exact ⟨ahead, behind, ended, meant⟩
  · intro increment _ machine
    have silentTurn : ∀ statement ∈ [body, .expression increment], statement.declaresNone = true := by
      simpa using ⟨silent, rfl⟩
    exact ⟨fun fuel => unbound_in_block fuel silentTurn machine,
      fun _ fuel other => unbound_elsewhere fuel other⟩

private def glyph (kind : TokenKind) (lexeme : String) : Token :=
  { kind, lexeme, line := 1, span := ⟨0, 0⟩ }

private def digit (value : Int64) (lexeme : String) : Token :=
  { glyph .number lexeme with literal := some (.int value) }

/-- `(var i = 0; i < 1; i++) { fun f() { return i; } clock = f; }` -/
private def capturingTokens : List Token :=
  [glyph .leftParen "(", glyph (.keyword .varWord) "var", glyph .identifier "i", glyph .assign "=",
    digit 0 "0", glyph .semicolon ";", glyph .identifier "i", glyph .less "<", digit 1 "1",
    glyph .semicolon ";", glyph .identifier "i", glyph .increment "++", glyph .rightParen ")",
    glyph .leftBrace "\x7b", glyph (.keyword .funWord) "fun", glyph .identifier "f",
    glyph .leftParen "(", glyph .rightParen ")", glyph .leftBrace "\x7b",
    glyph (.keyword .returnWord) "return", glyph .identifier "i", glyph .semicolon ";",
    glyph .rightBrace "\x7d", glyph .identifier "clock", glyph .assign "=", glyph .identifier "f",
    glyph .semicolon ";", glyph .rightBrace "\x7d"]

private def countedUp : Expr := .increment (glyph .identifier "i") (glyph .increment "++")

private def capturingHeader : ForHeader where
  initializer := some (.declare (glyph .identifier "i") (some (.literal (.int 0))))
  condition := some (.binary (.var (glyph .identifier "i")) (glyph .less "<") (.literal (.int 1)))
  increment := some countedUp

private def capturingStep : Step (capturingTokens.length + 1) Stmt :=
  Grammar.statement (glyph .endOfInput "") (glyph (.keyword .forWord) "for" :: capturingTokens)

/-- The statement that the step gives if it takes all tokens and notes no error. -/
private def Step.whole? {limit : Nat} : Step limit Stmt → Option Stmt
  | .ok statement [] [] _ => some statement
  | _ => none

private theorem Step.reads_of_whole? {limit : Nat} {step : Step limit Stmt} {statement : Stmt}
    (found : step.whole? = some statement) : step.Reads statement [] := by
  unfold whole? at found
  split at found
  · cases found
    exact ⟨_, rfl⟩
  · cases found

private theorem capturing_found : capturingStep.whole?.isSome := by decide +kernel

private def capturing : Stmt := capturingStep.whole?.get capturing_found

private def outset : Machine := Machine.start fun _ => 0

private def Outcome.hasEnded {α : Type} : Outcome RuntimeError α → Bool
  | .exhausted => false
  | _ => true

/-- A loop that binds a function of its turn to a global name. As it is spelled out, the function is
closed over the fourth scope, which is made in that of the turn; read directly, over the third. -/
theorem capturing_loop_as_meant :
    (glyph (.keyword .forWord) "for").kind = .keyword .forWord ∧ capturingStep.Reads capturing [] ∧
      ∃ (body : Stmt) (padding : Padding), capturing = capturingHeader.loop body ∧
        padding.Unnoticed outset (execute 9 capturing outset) (capturingHeader.direct body 9 outset) ∧
        ((execute 9 capturing outset).2.heap.local? 0 "clock").bind Value.closure? = some 3 ∧
        ((capturingHeader.direct body 9 outset).2.heap.local? 0 "clock").bind Value.closure? =
          some (padding.stands 3) ∧
        ∀ passed ∈ (Traced.execute 9 (.block [body, .expression countedUp])).history outset,
          passed.heap.Unbound 1 := by
  have read : capturingStep.Reads capturing [] :=
    Step.reads_of_whole? (Option.some_get capturing_found).symm
  obtain ⟨header, middle, body, heads, _, spelled, runs, silent⟩ := for_loops_run_as_meant rfl read
  have headed : (Grammar.forHeader (glyph .endOfInput "") capturingTokens).Reads capturingHeader
      (capturingTokens.drop 13) := ⟨by decide, by cbv⟩
  obtain ⟨rfl, rfl⟩ := heads.unique headed
  have ended : (execute 9 capturing outset).1 ≠ .exhausted := by
    intro stopped
    have done : (execute 9 capturing outset).1.hasEnded = true := by decide +kernel
    rw [stopped] at done
    cases done
  have closed : ((execute 9 capturing outset).2.heap.local? 0 "clock").bind Value.closure? = some 3 := by
    decide +kernel
  obtain ⟨_, _, same, _⟩ := runs _ outset (.resting .start) 9
  obtain ⟨padding, unnoticed⟩ := same ended
  refine ⟨rfl, read, body, padding, spelled, unnoticed, closed, ?_, (silent _ rfl outset).1 9⟩
  rw [unnoticed.values 0 (by decide +kernel)]
  obtain ⟨value, bound, closes⟩ := Option.bind_eq_some_iff.1 closed
  rw [bound, Option.map_some, Option.bind_some, Value.closure?_renumber, closes, Option.map_some]

end TinyScript
