import TinyScript.Proofs.CallDepth
import TinyScript.Proofs.Conduct

/-! Regimes: rules about what stands on a heap that evaluation cannot break. A regime says which heaps
it allows, which values may go around on them, which scopes code may run in and in which of them it
may declare names. If the single changes of a heap keep to it, so does every machine that evaluation
passes through, however it ends. -/
namespace TinyScript

/-- The later heap has all scopes and callables that the earlier one had. -/
structure Heap.Grows (before after : Heap) : Prop where
  scopes : before.scopes.size ≤ after.scopes.size
  callables : before.callables ≤ after.callables

namespace Heap.Grows

theorem refl (heap : Heap) : heap.Grows heap := ⟨Nat.le_refl _, Nat.le_refl _⟩

theorem trans {first second third : Heap} (earlier : first.Grows second)
    (later : second.Grows third) : first.Grows third :=
  ⟨Nat.le_trans earlier.scopes later.scopes, Nat.le_trans earlier.callables later.callables⟩

theorem modify (heap : Heap) (scope : ScopeId) (change : Scope → Scope) :
    heap.Grows (heap.modify scope change) :=
  ⟨by simp [Heap.modify], Nat.le_refl _⟩

theorem addScope (heap : Heap) (enclosing : Option ScopeId) :
    heap.Grows (heap.addScope enclosing).2 :=
  ⟨by simp [Heap.addScope], Nat.le_refl _⟩

theorem addCallable (heap : Heap) (routine : Routine) :
    heap.Grows (heap.addCallable routine).2 :=
  ⟨Nat.le_refl _, Nat.le_succ _⟩

end Heap.Grows

/-- A value other than a function. -/
def Value.IsPlain : Value → Prop
  | .callable _ => False
  | _ => True

theorem Value.isPlain_ofPrimitive (primitive : Primitive) : (ofPrimitive primitive).IsPlain := by
  cases primitive <;> trivial

section Operators

variable {operator : Token} {left right result : Value}

theorem isPlain_of_exactValue {value : Int} (given : exactValue operator value = .ok result) :
    result.IsPlain := by
  unfold exactValue at given
  split at given <;> cases given
  trivial

theorem isPlain_of_applySign (given : applySign operator right = .ok result) : result.IsPlain := by
  unfold applySign at given
  split at given
  · cases given
    trivial
  · split at given
    · exact isPlain_of_exactValue given
    · cases given

theorem isPlain_of_applyToInts {left right : Int64}
    (given : applyToInts operator left right = .ok result) : result.IsPlain := by
  unfold applyToInts at given
  split at given
  case h_1 | h_2 | h_3 => exact isPlain_of_exactValue given
  case h_4 =>
    split at given
    · cases given
    · exact isPlain_of_exactValue given
  case h_5 | h_6 | h_7 | h_8 =>
    cases given
    trivial
  case h_9 => cases given

theorem isPlain_of_applyOperator (given : applyOperator operator left right = .ok result) :
    result.IsPlain := by
  unfold applyOperator at given
  split at given
  · cases given
    trivial
  split at given
  · cases given
    trivial
  split at given
  · exact isPlain_of_applyToInts given
  · split at given <;> cases given
    trivial
  · cases given

theorem isPlain_of_stepped {sign : Token} {value : Int64} (given : stepped sign value = .ok result) :
    result.IsPlain := by
  unfold stepped at given
  split at given <;> exact isPlain_of_exactValue given

end Operators

/-- A regime, with the changes of a heap that keep to it. -/
structure Regime where
  fits : (globals : ScopeId) → Heap → Prop
  admits : Heap → Value → Prop
  enters : Heap → ScopeId → Prop
  declares : Heap → ScopeId → Prop
  admits_grows {before after : Heap} {value : Value} :
    before.Grows after → admits before value → admits after value
  enters_grows {before after : Heap} {scope : ScopeId} :
    before.Grows after → enters before scope → enters after scope
  declares_grows {before after : Heap} {scope : ScopeId} :
    before.Grows after → declares before scope → declares after scope
  plain {heap : Heap} {value : Value} : value.IsPlain → admits heap value
  bound {globals scope : ScopeId} {heap : Heap} {name : String} {value : Value} :
    fits globals heap → heap.local? scope name = some value → admits heap value
  closure {heap : Heap} {identity : Nat} {function : Function} :
    admits heap (.callable ⟨identity, .declared function⟩) → enters heap function.closure
  update {globals : ScopeId} {heap : Heap} {value : Value} (scope : ScopeId) (name : String) :
    fits globals heap → admits heap value →
      fits globals (heap.modify scope (·.update name value))
  insert {globals scope : ScopeId} {heap : Heap} {name : String} {value : Value} :
    fits globals heap → admits heap value → declares heap scope → heap.local? scope name = none →
      fits globals (heap.modify scope (·.insert name value))
  addScope {globals enclosing : ScopeId} {heap : Heap} :
    fits globals heap → enters heap enclosing →
      fits globals (heap.addScope (some enclosing)).2 ∧
        enters (heap.addScope (some enclosing)).2 heap.scopes.size ∧
        declares (heap.addScope (some enclosing)).2 heap.scopes.size
  addCallable {globals : ScopeId} {heap : Heap} {function : Function} :
    fits globals heap → enters heap function.closure →
      fits globals (heap.addCallable (.declared function)).2 ∧
        admits (heap.addCallable (.declared function)).2
          (.callable (heap.addCallable (.declared function)).1)

namespace Regime

variable (regime : Regime)

/-- The machine is in a scope that code may run in, on a heap that is allowed. -/
structure Holds (machine : Machine) : Prop where
  heap : regime.fits machine.globals machine.heap
  scope : regime.enters machine.heap machine.scope

/-- The machine can go on where the regime leads it, which is to the scope it was in. -/
structure Leads (machine reached : Machine) : Prop where
  holds : regime.Holds reached
  grows : machine.heap.Grows reached.heap
  scope : reached.scope = machine.scope

/-- What has been recorded from the machine on keeps to the regime: every machine on the way, the
last one, and the value if there is one. -/
structure Kept {α : Type} (fine : Machine → α → Prop) (machine : Machine) (recorded : Record α) :
    Prop where
  passed : ∀ between ∈ recorded.passed, regime.Holds between
  leads : regime.Leads machine recorded.ending.2
  value : ∀ value, recorded.ending.1 = .done value → fine recorded.ending.2 value

/-- The values that may go around on a machine. -/
abbrev given (machine : Machine) : Value → Prop := regime.admits machine.heap

/-- The flows that may go around on a machine. -/
abbrev flows (machine : Machine) : Flow → Prop := Flow.Passes (regime.given machine)

variable {regime}

namespace Leads

theorem refl {machine : Machine} (holds : regime.Holds machine) : regime.Leads machine machine :=
  ⟨holds, .refl _, rfl⟩

theorem trans {first second third : Machine} (earlier : regime.Leads first second)
    (later : regime.Leads second third) : regime.Leads first third :=
  ⟨later.holds, earlier.grows.trans later.grows, later.scope.trans earlier.scope⟩

variable {machine reached : Machine} (leads : regime.Leads machine reached)
include leads

theorem admits {value : Value} (admitted : regime.admits machine.heap value) :
    regime.admits reached.heap value :=
  regime.admits_grows leads.grows admitted

theorem declares (allowed : regime.declares machine.heap machine.scope) :
    regime.declares reached.heap reached.scope := by
  rw [leads.scope]
  exact regime.declares_grows leads.grows allowed

end Leads

/-- A change of the heap that is allowed leads on. -/
theorem Leads.withHeap {machine : Machine} (holds : regime.Holds machine) {heap : Heap}
    (grows : machine.heap.Grows heap) (allowed : regime.fits machine.globals heap) :
    regime.Leads machine { machine with heap } :=
  ⟨⟨allowed, regime.enters_grows grows holds.scope⟩, grows, rfl⟩

namespace Kept

section Rules

variable {α β : Type} {fine : Machine → α → Prop} {machine : Machine}

theorem pure (holds : regime.Holds machine) {value : α} (given : fine machine value) :
    regime.Kept fine machine ((Pure.pure value : Traced α) machine) where
  passed _ among := by cases among
  leads := .refl holds
  value _ ended := by
    cases ended
    exact given

/-- A step that gives a value leads to the machine it leaves. -/
theorem step {run : Run α} {value : α} {reached : Machine}
    (ran : run machine = (.done value, reached)) (leads : regime.Leads machine reached)
    (given : fine reached value) : regime.Kept fine machine (Traced.step run machine) := by
  unfold Traced.step
  rw [ran]
  refine ⟨List.forall_mem_singleton.2 leads.holds, leads, ?_⟩
  rintro _ ⟨⟩
  exact given

/-- A step that fails leaves the machine as it is. -/
theorem stop {run : Run α} {error : RuntimeError} (ran : run machine = (.failed error, machine))
    (holds : regime.Holds machine) : regime.Kept fine machine (Traced.step run machine) := by
  unfold Traced.step
  rw [ran]
  exact ⟨List.forall_mem_singleton.2 holds, .refl holds, fun _ ended => by cases ended⟩

theorem exhausted (holds : regime.Holds machine) :
    regime.Kept fine machine (Traced.step Run.exhausted machine) :=
  ⟨List.forall_mem_singleton.2 holds, .refl holds, fun _ ended => by cases ended⟩

/-- What goes on from a value that may go around keeps to the regime as a whole. -/
theorem bind {good : Machine → β → Prop} {first : Traced α} {next : α → Traced β}
    (kept : regime.Kept fine machine (first machine))
    (onwards : ∀ reached value, regime.Leads machine reached → fine reached value →
      regime.Kept good reached (next value reached)) :
    regime.Kept good machine ((first >>= next) machine) := by
  obtain ⟨passed, leads, given⟩ := kept
  change regime.Kept good machine (Traced.bind first next machine)
  unfold Traced.bind
  rcases recorded : first machine with ⟨⟨outcome, reached⟩, between, _⟩
  rw [recorded] at passed leads given
  cases outcome with
  | done value =>
    obtain ⟨later, further, result⟩ := onwards reached value leads (given value rfl)
    exact ⟨List.forall_mem_append.2 ⟨passed, later⟩, leads.trans further, result⟩
  | failed error => exact ⟨passed, leads, fun _ ended => by cases ended⟩
  | exhausted => exact ⟨passed, leads, fun _ ended => by cases ended⟩

/-- The run itself leads where its record does. -/
theorem leads_of_result {traced : Traced α} {run : Run α} (same : traced.result = run)
    (kept : regime.Kept fine machine (traced machine)) : regime.Leads machine (run machine).2 := by
  subst same
  exact kept.leads

theorem forget {recorded : Record α} (kept : regime.Kept fine machine recorded) :
    regime.Kept anything machine recorded :=
  ⟨kept.passed, kept.leads, fun _ _ => trivial⟩

/-- On a detour, the machines between entering and leaving are those of the body. -/
theorem detour {entered left : Machine} {recorded : Record α}
    (kept : regime.Kept fine entered recorded) (holds : regime.Holds entered)
    (leads : regime.Leads machine left)
    (stays : ∀ value, fine recorded.ending.2 value → fine left value) :
    regime.Kept fine machine (recorded.detour entered left) where
  passed between among := by
    simp only [Record.detour, List.cons_append, List.mem_cons, List.mem_append, List.not_mem_nil,
      or_false] at among
    rcases among with rfl | within | rfl
    · exact holds
    · exact kept.passed between within
    · exact leads.holds
  leads := leads
  value value ended := stays value (kept.value value ended)

theorem inScope {scope : ScopeId} {body : Traced Flow} (holds : regime.Holds machine)
    (entered : regime.enters machine.heap scope)
    (kept : regime.Kept regime.flows { machine with scope } (body { machine with scope })) :
    regime.Kept regime.flows machine (body.inScope scope machine) := by
  have inside : regime.Holds { machine with scope } := ⟨holds.heap, entered⟩
  obtain ⟨reached, grows, _⟩ := kept.leads
  exact kept.detour inside ⟨⟨reached.heap, regime.enters_grows grows holds.scope⟩, grows, rfl⟩
    fun _ => id

theorem fail (holds : regime.Holds machine) (cause : RuntimeCause) (token : Token) :
    regime.Kept fine machine (Traced.step (Run.fail cause token) machine) :=
  stop rfl holds

theorem nested {paren : Token} {body : Traced Value} (holds : regime.Holds machine)
    (kept : regime.Kept regime.given { machine with depth := machine.depth + 1 }
      (body { machine with depth := machine.depth + 1 })) :
    regime.Kept regime.given machine (body.nested paren machine) := by
  unfold Traced.nested
  by_cases full : depthLimit ≤ machine.depth
  · rw [if_pos full]
    exact fail holds .stackOverflow paren
  · rw [if_neg full]
    obtain ⟨reached, grows, back⟩ := kept.leads
    exact kept.detour ⟨holds.heap, holds.scope⟩ ⟨⟨reached.heap, reached.scope⟩, grows, back⟩
      fun _ => id

end Rules

section Steps

variable {machine : Machine} (holds : regime.Holds machine)
include holds

theorem ofExcept {answer : Except RuntimeError Value}
    (plain : ∀ value, answer = .ok value → value.IsPlain) :
    regime.Kept regime.given machine (Traced.step (Run.ofExcept answer) machine) := by
  cases answer with
  | ok value => exact step rfl (.refl holds) (regime.plain (plain value rfl))
  | error error => exact stop rfl holds

theorem apply (application : Application) :
    regime.Kept regime.given machine (Traced.apply application machine) := by
  obtain ⟨passed, leads, value⟩ : regime.Kept regime.given machine
      (Traced.step (Run.ofExcept application.result) machine) :=
    ofExcept holds fun _ => isPlain_of_applyOperator
  exact ⟨passed, leads, value⟩

theorem lookup (name : Token) :
    regime.Kept regime.given machine (Traced.step (Run.lookup name) machine) := by
  cases found : machine.heap.find? machine.scope name.lexeme with
  | none =>
    have ran : Run.lookup name machine = (.failed (Heap.undefinedName name), machine) := by
      simp only [Run.lookup, Heap.get, found]
    exact stop ran holds
  | some value =>
    have ran : Run.lookup name machine = (.done value, machine) := by
      simp only [Run.lookup, Heap.get, found]
    obtain ⟨binder, _, stored⟩ := Option.bind_eq_some_iff.1 found
    exact step ran (.refl holds) (regime.bound holds.heap stored)

theorem assign (name : Token) {value : Value} (admitted : regime.admits machine.heap value) :
    regime.Kept anything machine (Traced.step (Run.assign name value) machine) := by
  cases found : machine.heap.binder? machine.scope name.lexeme with
  | none =>
    have ran : Run.assign name value machine = (.failed (Heap.undefinedName name), machine) := by
      simp only [Run.assign, Run.onHeap, Heap.assign, found]
    exact stop ran holds
  | some binder =>
    have ran : Run.assign name value machine = (.done (),
        { machine with heap := machine.heap.modify binder (·.update name.lexeme value) }) := by
      simp only [Run.assign, Run.onHeap, Heap.assign, found]
    have allowed := regime.update binder name.lexeme holds.heap admitted
    exact step ran (.withHeap holds (.modify _ _ _) allowed) trivial

theorem defineIn {scope : ScopeId} (name : Token) {value : Value}
    (opened : regime.declares machine.heap scope) (admitted : regime.admits machine.heap value) :
    regime.Kept anything machine (Traced.step (Run.defineIn scope name value) machine) := by
  cases found : machine.heap.local? scope name.lexeme with
  | some _ =>
    have ran : Run.defineIn scope name value machine =
        (.failed ⟨.alreadyInUse name.lexeme, name⟩, machine) := by
      simp only [Run.defineIn, Run.onHeap, Heap.define, found]
    exact stop ran holds
  | none =>
    have ran : Run.defineIn scope name value machine = (.done (),
        { machine with heap := machine.heap.modify scope (·.insert name.lexeme value) }) := by
      simp only [Run.defineIn, Run.onHeap, Heap.define, found]
    have allowed := regime.insert holds.heap admitted opened found
    exact step ran (.withHeap holds (.modify _ _ _) allowed) trivial

theorem currentScope :
    regime.Kept (fun machine => regime.enters machine.heap) machine
      (Traced.step Run.currentScope machine) :=
  step rfl (.refl holds) holds.scope

theorem newScope {enclosing : ScopeId} (entered : regime.enters machine.heap enclosing) :
    regime.Kept (fun machine scope =>
      regime.enters machine.heap scope ∧ regime.declares machine.heap scope) machine
        (Traced.step (Run.newScope enclosing) machine) := by
  obtain ⟨allowed, inside⟩ := regime.addScope holds.heap entered
  have leads := Leads.withHeap holds (.addScope machine.heap (some enclosing)) allowed
  have ran : Run.newScope enclosing machine = (.done machine.heap.scopes.size,
      { machine with heap := (machine.heap.addScope (some enclosing)).2 }) := rfl
  exact step ran leads inside

theorem newCallable {function : Function} (entered : regime.enters machine.heap function.closure) :
    regime.Kept (fun machine callable => regime.given machine (.callable callable)) machine
      (Traced.step (Run.newCallable (.declared function)) machine) := by
  obtain ⟨allowed, admitted⟩ := regime.addCallable holds.heap entered
  have leads := Leads.withHeap holds (.addCallable machine.heap (.declared function)) allowed
  have ran : Run.newCallable (.declared function) machine =
      (.done (machine.heap.addCallable (.declared function)).1,
        { machine with heap := (machine.heap.addCallable (.declared function)).2 }) := rfl
  exact step ran leads admitted

theorem callNative (builtin : Native) (arguments : List Value) (paren : Token) :
    regime.Kept regime.given machine
      (Traced.step (TinyScript.callNative builtin arguments paren) machine) := by
  -- Printing and looking at the clock change neither the heap nor the scope.
  have printed (text : String) {run : Run Value}
      (ran : run machine = (.done .nil, { machine with output := machine.output ++ text })) :
      regime.Kept regime.given machine (Traced.step run machine) :=
    step ran ⟨⟨holds.heap, holds.scope⟩, .refl _, rfl⟩ (regime.plain trivial)
  cases builtin with
  | clock =>
    have ran : TinyScript.callNative .clock arguments paren machine =
        (.done (.int (machine.clock.readings machine.clock.looks)),
          { machine with clock := { machine.clock with looks := machine.clock.looks + 1 } }) := rfl
    exact step ran ⟨⟨holds.heap, holds.scope⟩, .refl _, rfl⟩ (regime.plain trivial)
  | print => exact printed (joinedText arguments) rfl
  | println => exact printed (joinedText arguments ++ "\n") rfl
  | inHex =>
    unfold TinyScript.callNative
    cases arguments.mapM Value.hexText? with
    | some texts => exact printed (String.join texts ++ "\n") rfl
    | none => exact fail holds .invalidHexArgument paren

end Steps

end Kept

/-- Runs that keep to the regime hold to a conduct. -/
def conduct (regime : Regime) : Conduct .all where
  World := Machine
  later := regime.Leads
  admits := regime.given
  enters machine := regime.enters machine.heap
  opened machine scope := regime.enters machine.heap scope ∧ regime.declares machine.heap scope
  declares machine := regime.declares machine.heap machine.scope
  holds fine machine traced := regime.Holds machine → regime.Kept fine machine (traced machine)
  admits_later leads := leads.admits
  opened_later leads := And.imp (regime.enters_grows leads.grows) (regime.declares_grows leads.grows)
  declares_later leads := leads.declares
  primitive value := regime.plain (Value.isPlain_ofPrimitive value)
  closure admitted := ⟨regime.closure admitted, trivial⟩
  pure given holds := .pure holds given
  bind kept onwards holds := (kept holds).bind fun reached value leads given =>
    onwards reached value leads given leads.holds
  inScope opened kept holds := .inScope holds opened.1 (kept _ opened.2 ⟨holds.heap, opened.1⟩)
  nested _ kept holds := .nested holds (kept _ (fun _ => id) ⟨holds.heap, holds.scope⟩)
  exhausted holds := .exhausted holds
  fail _ _ holds := .fail holds _ _
  sign _ holds := .ofExcept holds fun _ => isPlain_of_applySign
  counted _ holds := .ofExcept holds fun _ => isPlain_of_stepped
  apply _ holds := .apply holds _
  lookup _ holds := .lookup holds _
  assign _ given holds := .assign holds _ given
  define _ opened given holds := .defineIn holds _ opened given
  defineIn _ opened given holds := .defineIn holds _ opened.2 given
  currentScope holds := .currentScope holds
  newScope entered holds := .newScope holds entered
  newCallable entered _ holds := .newCallable holds entered
  native _ holds := .callNative holds _ _ _

/-- All evaluation keeps to the regime. -/
theorem kept_evaluation (regime : Regime) (fuel : Nat) :
    (∀ expression machine, regime.Holds machine →
      regime.Kept regime.given machine (Traced.evaluate fuel expression machine)) ∧
    ∀ statement machine, regime.Holds machine →
      (statement.declaresNone = true ∨ regime.declares machine.heap machine.scope) →
        regime.Kept regime.flows machine (Traced.execute fuel statement machine) := by
  obtain ⟨values, flows⟩ := regime.conduct.evaluation fuel
  refine ⟨fun expression machine => values expression trivial machine, ?_⟩
  intro statement machine holds allowed
  exact flows statement trivial machine allowed holds

theorem kept_sequence (regime : Regime) (fuel : Nat) {statements : List Stmt} {machine : Machine}
    (holds : regime.Holds machine) (allowed : ∀ statement ∈ statements,
      statement.declaresNone = true ∨ regime.declares machine.heap machine.scope) :
    regime.Kept regime.flows machine
      (Traced.sequence (Traced.execute fuel) statements machine) :=
  Conduct.sequence (regime.conduct.evaluation fuel).2 (fun _ _ => trivial) allowed holds

theorem kept_block (regime : Regime) (fuel : Nat) (statements : List Stmt) {machine : Machine}
    (holds : regime.Holds machine) {enclosing : ScopeId}
    (entered : regime.enters machine.heap enclosing) :
    regime.Kept regime.flows machine
      (Traced.block (Traced.execute fuel) enclosing statements machine) :=
  Conduct.block (regime.conduct.evaluation fuel).2 entered (fun _ _ => trivial) holds

theorem kept_interpret (regime : Regime) (fuel : Nat) (statements : List Stmt) {machine : Machine}
    (holds : regime.Holds machine) (opened : regime.declares machine.heap machine.scope) :
    regime.Kept anything machine (Traced.interpret fuel statements machine) :=
  regime.conduct.interpret fuel (fun _ _ => trivial) machine opened holds

end Regime

end TinyScript
