import Mathlib
import TinyScript.Proofs.Regime
import TinyScript.Session

/-! Declarations stay in their scope. Expressions and blocks change the names of no scope that was
there before them, other statements only add names to the scope they run in, and so a session never
loses a name it has once bound. -/
namespace TinyScript

namespace Heap

/-- The scope has a binding of its own for the name. -/
def Binds (heap : Heap) (scope : ScopeId) (name : String) : Prop :=
  (heap.local? scope name).isSome

instance (heap : Heap) (scope : ScopeId) (name : String) : Decidable (heap.Binds scope name) :=
  inferInstanceAs (Decidable (_ = true))

section Changes

variable (heap : Heap) (scope id : ScopeId) (name other : String) (value : Value)

theorem binds_update :
    (heap.modify scope (·.update name value)).Binds id other ↔ heap.Binds id other := by
  unfold Binds local? modify
  rw [Array.getElem?_modify]
  cases heap.scopes[id]? with
  | none => simp
  | some here =>
    by_cases target : scope = id
    · by_cases same : other = name <;> simp [target, Scope.find?_update, same]
    · simp [target]

theorem binds_insert :
    (heap.modify scope (·.insert name value)).Binds id other ↔
      heap.Binds id other ∨ id < heap.scopes.size ∧ id = scope ∧ other = name := by
  unfold Binds local? modify
  rw [Array.getElem?_modify]
  cases stored : heap.scopes[id]? with
  | none =>
    have absent := Array.getElem?_eq_none_iff.1 stored
    simp [Nat.not_lt.2 absent]
  | some here =>
    obtain ⟨present, _⟩ := Array.getElem?_eq_some_iff.1 stored
    by_cases target : scope = id
    · by_cases same : other = name <;> simp [target, Scope.find?_insert, same, present]
    · simp [target, Ne.symm target]

theorem binds_addScope (enclosing : Option ScopeId) :
    (heap.addScope enclosing).2.Binds id other ↔ heap.Binds id other := by
  unfold Binds local? addScope
  rw [Array.getElem?_push]
  by_cases fresh : id = heap.scopes.size
  · simp [fresh, Scope.find?]
  · simp [fresh]

end Changes

/-- Every scope that was there is where it was and has the names it had; only an `opened` one may
have got more of them. -/
structure Spares (opened : ScopeId → Prop) (before after : Heap) : Prop where
  scopes : before.scopes.size ≤ after.scopes.size
  enclosing : ∀ id < before.scopes.size,
    after.scopes[id]?.map Scope.enclosing = before.scopes[id]?.map Scope.enclosing
  names : ∀ id name, before.Binds id name → after.Binds id name
  only : ∀ id < before.scopes.size, ¬ opened id → ∀ name, after.Binds id name → before.Binds id name

namespace Spares

variable {opened : ScopeId → Prop} {before after : Heap}

theorem refl (opened : ScopeId → Prop) (heap : Heap) : heap.Spares opened heap :=
  ⟨Nat.le_refl _, fun _ _ => rfl, fun _ _ bound => bound, fun _ _ _ _ bound => bound⟩

variable (spares : before.Spares opened after)
include spares

theorem enclosing_modify (scope : ScopeId) (change : Scope → Scope)
    (stays : ∀ scope, (change scope).enclosing = scope.enclosing) :
    ∀ id < before.scopes.size, (after.modify scope change).scopes[id]?.map Scope.enclosing =
      before.scopes[id]?.map Scope.enclosing := by
  intro id present
  rw [← spares.enclosing id present, modify, Array.getElem?_modify]
  by_cases target : scope = id
  · simp [target, Function.comp_def, stays]
  · simp [target]

theorem update (scope : ScopeId) (name : String) (value : Value) :
    before.Spares opened (after.modify scope (·.update name value)) where
  scopes := Nat.le_trans spares.scopes (Grows.modify _ _ _).scopes
  enclosing := spares.enclosing_modify scope _ fun _ => rfl
  names id other bound := (binds_update ..).2 (spares.names id other bound)
  only id present closed other bound :=
    spares.only id present closed other ((binds_update ..).1 bound)

theorem insert {scope : ScopeId} (allowed : opened scope ∨ before.scopes.size ≤ scope)
    (name : String) (value : Value) :
    before.Spares opened (after.modify scope (·.insert name value)) where
  scopes := Nat.le_trans spares.scopes (Grows.modify _ _ _).scopes
  enclosing := spares.enclosing_modify scope _ fun _ => rfl
  names id other bound := (binds_insert ..).2 (.inl (spares.names id other bound))
  only id present closed other bound := by
    rcases (binds_insert ..).1 bound with old | ⟨_, rfl, _⟩
    · exact spares.only id present closed other old
    · exact absurd present (Nat.not_lt.2 (allowed.resolve_left closed))

theorem addScope (enclosing : Option ScopeId) :
    before.Spares opened (after.addScope enclosing).2 where
  scopes := Nat.le_trans spares.scopes (Grows.addScope _ _).scopes
  enclosing id present := by
    have old : id ≠ after.scopes.size := Nat.ne_of_lt (Nat.lt_of_lt_of_le present spares.scopes)
    rw [← spares.enclosing id present, Heap.addScope, Array.getElem?_push, if_neg old]
  names id other bound := (binds_addScope ..).2 (spares.names id other bound)
  only id present closed other bound :=
    spares.only id present closed other ((binds_addScope ..).1 bound)

end Spares

end Heap

/-- The regime of a run that may declare names in `opened` scopes and in those it makes itself. -/
def Regime.sparing (machine : Machine) (opened : ScopeId → Prop) : Regime where
  fits globals heap := globals = machine.globals ∧ machine.heap.Spares opened heap
  admits _ _ := True
  enters _ _ := True
  declares _ scope := opened scope ∨ machine.heap.scopes.size ≤ scope
  admits_grows _ admitted := admitted
  enters_grows _ entered := entered
  declares_grows _ allowed := allowed
  plain _ := trivial
  bound _ _ := trivial
  closure _ := trivial
  update scope name fits _ := ⟨fits.1, fits.2.update scope name _⟩
  insert fits _ allowed _ := ⟨fits.1, fits.2.insert allowed _ _⟩
  addScope fits _ := ⟨⟨fits.1, fits.2.addScope _⟩, trivial, .inr fits.2.scopes⟩
  addCallable fits _ :=
    ⟨⟨fits.1, fits.2.scopes, fits.2.enclosing, fits.2.names, fits.2.only⟩, trivial⟩

theorem Regime.sparing_holds (machine : Machine) (opened : ScopeId → Prop) :
    (sparing machine opened).Holds machine :=
  ⟨⟨rfl, .refl opened machine.heap⟩, trivial⟩

section Evaluation

variable (fuel : Nat) (machine : Machine)

theorem evaluate_spares (expression : Expr) :
    machine.heap.Spares (fun _ => False) (evaluate fuel expression machine).2.heap := by
  let regime := Regime.sparing machine fun _ => False
  have kept := (regime.kept_evaluation fuel).1 expression machine (Regime.sparing_holds machine _)
  have same := (Traced.compositional_result.evaluation fuel).1 expression
  exact (kept.leads_of_result same).holds.heap.2

theorem execute_block_spares (statements : List Stmt) :
    machine.heap.Spares (fun _ => False) (execute fuel (.block statements) machine).2.heap := by
  let regime := Regime.sparing machine fun _ => False
  have kept := (regime.kept_evaluation fuel).2 (.block statements) machine
    (Regime.sparing_holds machine _) (.inl rfl)
  have same := (Traced.compositional_result.evaluation fuel).2 (.block statements)
  exact (kept.leads_of_result same).holds.heap.2

theorem execute_spares (statement : Stmt) :
    machine.heap.Spares (· = machine.scope) (execute fuel statement machine).2.heap := by
  let regime := Regime.sparing machine (· = machine.scope)
  have kept := (regime.kept_evaluation fuel).2 statement machine
    (Regime.sparing_holds machine _) (.inr (.inl rfl))
  have same := (Traced.compositional_result.evaluation fuel).2 statement
  exact (kept.leads_of_result same).holds.heap.2

/-- A program adds names to the scope it runs in, and every machine on the way has the globals of the
first. -/
theorem interpret_spares (statements : List Stmt) :
    (∀ passed ∈ (Traced.interpret fuel statements).history machine,
      passed.globals = machine.globals ∧ machine.heap.Spares (· = machine.scope) passed.heap) ∧
    (interpret fuel statements machine).2.globals = machine.globals ∧
      machine.heap.Spares (· = machine.scope) (interpret fuel statements machine).2.heap := by
  let regime := Regime.sparing machine (· = machine.scope)
  have kept := regime.kept_interpret fuel statements (Regime.sparing_holds machine _) (.inl rfl)
  have same := Traced.compositional_result.interpret fuel statements
  exact ⟨fun passed among => (kept.passed passed among).heap, (kept.leads_of_result same).holds.heap⟩

end Evaluation

/-- What a session can be asked to run. -/
inductive Request where
  | text (path source : String)
  | file (path : String) (file : File)

namespace Session

def answer (fuel : Nat) (session : Session) : Request → Outcome Failure Unit × Session
  | .text path source => session.run fuel path source
  | .file path file => session.runFile fuel path file

/-- The session behind a row of requests, each with its own fuel. -/
def serve (session : Session) (requests : List (Nat × Request)) : Session :=
  requests.foldl (fun session request => (session.answer request.1 request.2).2) session

theorem runParsed_cases (fuel : Nat) (path source : String) (parsed : Parsed) (session : Session) :
    (session.runParsed fuel path source parsed).2 = session ∨
      (session.runParsed fuel path source parsed).2.machine =
        (interpret fuel parsed.statements session.machine).2 := by
  unfold runParsed
  split
  · exact .inl rfl
  · right
    rcases interpret fuel parsed.statements session.machine with ⟨outcome, machine⟩
    cases outcome <;> rfl

theorem runFile_cases (fuel : Nat) (path : String) (file : File) (session : Session) :
    (session.runFile fuel path file).2 = session ∨
      ∃ source parsed,
        session.runFile fuel path file = session.runParsed fuel path source parsed := by
  unfold runFile
  cases file.open? with
  | error fault => exact .inl rfl
  | ok readings =>
    dsimp only
    split
    · exact .inl rfl
    · exact .inr ⟨_, _, rfl⟩

/-- A request runs one program, or nothing. -/
theorem answer_cases (fuel : Nat) (session : Session) (request : Request) :
    (session.answer fuel request).2 = session ∨
      ∃ statements, (session.answer fuel request).2.machine =
        (interpret fuel statements session.machine).2 := by
  have program (path source : String) (parsed : Parsed) :
      (session.runParsed fuel path source parsed).2 = session ∨
        ∃ statements, (session.runParsed fuel path source parsed).2.machine =
          (interpret fuel statements session.machine).2 :=
    (runParsed_cases fuel path source parsed session).imp id fun ran => ⟨_, ran⟩
  cases request with
  | text path source => exact program path source (parse source)
  | file path file =>
    rcases runFile_cases fuel path file session with idle | ⟨source, parsed, ran⟩
    · exact .inl idle
    · rw [answer, ran]
      exact program path source parsed

/-- No request takes a name from a scope, or changes which scope is the global one. -/
theorem serve_keeps (session : Session) (requests : List (Nat × Request)) :
    (session.serve requests).machine.globals = session.machine.globals ∧
      ∀ id name, session.machine.heap.Binds id name →
        (session.serve requests).machine.heap.Binds id name := by
  induction requests generalizing session with
  | nil => exact ⟨rfl, fun _ _ bound => bound⟩
  | cons request others ih =>
    obtain ⟨sameLater, namesLater⟩ := ih (session.answer request.1 request.2).2
    rcases session.answer_cases request.1 request.2 with idle | ⟨statements, ran⟩
    · rw [idle] at sameLater namesLater
      simpa only [serve, List.foldl_cons, idle] using ⟨sameLater, namesLater⟩
    · obtain ⟨_, same, spares⟩ := interpret_spares request.1 session.machine statements
      rw [ran] at sameLater namesLater
      exact ⟨sameLater.trans same, fun id name bound => namesLater id name (spares.names id name bound)⟩

end Session

/-- A fresh machine has the native functions in its global scope. -/
theorem Machine.start_binds (readings : Nat → Int64) (builtin : Native) :
    (Machine.start readings).heap.Binds (Machine.start readings).globals builtin.name := by
  cases builtin <;> rfl

/-- Nothing leaks out of a scope. Expressions and blocks leave the names and the place of every scope
that was there as they are, and other statements only add names to the current one, however they
end. Hence sessions never lose a binding, and the native functions are bound in their global scope
at any time. -/
theorem declarations_stay_in_scope :
    (∀ (fuel : Nat) (expression : Expr) (machine : Machine),
      machine.heap.Spares (fun _ => False) (evaluate fuel expression machine).2.heap) ∧
    (∀ (fuel : Nat) (statements : List Stmt) (machine : Machine),
      machine.heap.Spares (fun _ => False) (execute fuel (.block statements) machine).2.heap) ∧
    (∀ (fuel : Nat) (statement : Stmt) (machine : Machine),
      machine.heap.Spares (· = machine.scope) (execute fuel statement machine).2.heap) ∧
    (∀ (session : Session) (requests : List (Nat × Request)) (id : ScopeId) (name : String),
      session.machine.heap.Binds id name → (session.serve requests).machine.heap.Binds id name) ∧
    (∀ (readings : Nat → Int64) (requests : List (Nat × Request)) (builtin : Native),
      let session := (Session.start readings).serve requests
      session.machine.heap.Binds session.machine.globals builtin.name ∧
      ∀ (fuel : Nat) (statements : List Stmt),
        ∀ passed ∈ (Traced.interpret fuel statements).history session.machine,
          passed.heap.Binds passed.globals builtin.name) := by
  refine ⟨fun fuel expression machine => evaluate_spares fuel machine expression,
    fun fuel statements machine => execute_block_spares fuel machine statements,
    fun fuel statement machine => execute_spares fuel machine statement,
    fun session requests => (session.serve_keeps requests).2, ?_⟩
  intro readings requests builtin session
  obtain ⟨same, names⟩ := (Session.start readings).serve_keeps requests
  have bound : session.machine.heap.Binds session.machine.globals builtin.name := by
    rw [same]
    exact names _ _ (Machine.start_binds readings builtin)
  refine ⟨bound, ?_⟩
  intro fuel statements passed among
  obtain ⟨sameHere, spares⟩ := (interpret_spares fuel session.machine statements).1 passed among
  rw [sameHere]
  exact spares.names _ _ bound

private def label (lexeme : String) : Token :=
  { kind := .identifier, lexeme, line := 1, span := ⟨0, 1⟩ }

/-- `fun f(a) { var b = a; { var c = b; lost = c; } }` -/
private def losing : Stmt :=
  .function (label "f") [label "a"]
    [.declare (label "b") (some (.var (label "a"))),
      .block [.declare (label "c") (some (.var (label "b"))),
        .expression (.assign (label "lost") (.var (label "c")))]]

private def ready : Machine := (execute 1 losing (Machine.start fun _ => 0)).2

/-- `f(1)` -/
private def lostCall : Expr := .call (.var (label "f")) (label ")") [.literal (.int 1)]

/-- A call that fails inside a block of a function leaves none of its three names in the global scope,
a later run keeps the function there, and the declaration itself passes by a machine with the native
functions. -/
theorem failing_call_stays_in_scope :
    (evaluate 9 lostCall ready).1 = .failed ⟨.undefinedVariable "lost", label "lost"⟩ ∧
      (∀ name ∈ ["a", "b", "c"], ¬ (evaluate 9 lostCall ready).2.heap.Binds 0 name) ∧
      ready.heap.Binds 0 "f" ∧
      (Session.serve ⟨ready⟩ [(9, .text "later" "f(2);")]).machine.heap.Binds 0 "f" ∧
      ready ∈ (Traced.interpret 1 [losing]).history (Machine.start fun _ => 0) ∧
      ready.heap.Binds ready.globals "println" := by
  obtain ⟨expressions, _, _, sessions, natives⟩ := declarations_stay_in_scope
  have bound : ready.heap.Binds 0 "f" := by decide +kernel
  have passed : ready ∈ (Traced.interpret 1 [losing]).history (Machine.start fun _ => 0) := by
    have last : ((Traced.interpret 1 [losing]).history (Machine.start fun _ => 0))[2]? =
        some ready := rfl
    exact List.mem_of_getElem? last
  refine ⟨by cbv, ?_, bound, sessions ⟨ready⟩ _ 0 "f" bound, passed,
    (natives (fun _ => 0) [] .println).2 1 [losing] ready passed⟩
  intro name member leaked
  have unbound : ∀ name ∈ ["a", "b", "c"], ready.heap.local? 0 name = none := by decide +kernel
  have before := (expressions 9 lostCall ready).only 0 (by decide +kernel) id name leaked
  simp [Heap.Binds, unbound name member] at before

end TinyScript
