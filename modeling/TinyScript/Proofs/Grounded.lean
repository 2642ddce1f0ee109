import TinyScript.Proofs.LikeMachine
import TinyScript.Proofs.Regime

/-! Scope chains are grounded: on every machine that a program can bring about, going outwards from a
scope leads to older and older scopes and ends in the global one. The functions a scope binds may well
close over that very scope; what encloses it never depends on them. -/
namespace TinyScript

namespace Heap

/-- The one scope stands directly around the other. -/
def Encloses (heap : Heap) (outer inner : ScopeId) : Prop :=
  ∃ scope, heap.scopes[inner]? = some scope ∧ scope.enclosing = some outer

/-- The value refers to no scope but those that exist. -/
def Carries (heap : Heap) (value : Value) : Prop :=
  ∀ closure, value.closure? = some closure → closure < heap.scopes.size

theorem Grows.carries {before after : Heap} (grows : before.Grows after) {value : Value}
    (carries : before.Carries value) : after.Carries value :=
  fun closure closes => Nat.lt_of_lt_of_le (carries closure closes) grows.scopes

/-- Nothing stands around the global scope, every other scope stands inside an older one, and the
functions that scopes bind close over scopes that exist. -/
structure Grounded (globals : ScopeId) (heap : Heap) : Prop where
  outermost : ∃ scope, heap.scopes[globals]? = some scope ∧ scope.enclosing = none
  older : ∀ (id : ScopeId) (scope : Scope), heap.scopes[id]? = some scope →
    id = globals ∨ ∃ parent < id, scope.enclosing = some parent
  closures : ∀ (id : ScopeId) (scope : Scope), heap.scopes[id]? = some scope →
    ∀ binding ∈ scope.bindings, heap.Carries binding.2

namespace Grounded

variable {globals : ScopeId} {heap : Heap} (grounded : heap.Grounded globals)
include grounded

theorem globals_lt : globals < heap.scopes.size := by
  obtain ⟨_, stored, _⟩ := grounded.outermost
  exact (Array.getElem?_eq_some_iff.1 stored).1

theorem not_encloses_globals (outer : ScopeId) : ¬ heap.Encloses outer globals := by
  rintro ⟨scope, stored, encloses⟩
  obtain ⟨_, same, outermost⟩ := grounded.outermost
  obtain rfl := Option.some.inj (stored.symm.trans same)
  simp [outermost] at encloses

theorem lt_of_encloses {outer inner : ScopeId} (encloses : heap.Encloses outer inner) :
    outer < inner := by
  obtain ⟨scope, stored, inside⟩ := encloses
  rcases grounded.older inner scope stored with rfl | ⟨parent, older, same⟩
  · exact absurd ⟨scope, stored, inside⟩ (grounded.not_encloses_globals outer)
  · obtain rfl := Option.some.inj (inside.symm.trans same)
    exact older

theorem carries_bound {id : ScopeId} {name : String} {value : Value}
    (bound : heap.local? id name = some value) : heap.Carries value := by
  obtain ⟨scope, stored, found⟩ := Option.bind_eq_some_iff.1 bound
  obtain ⟨front, back, split, _⟩ := List.lookup_eq_some_iff.1 found
  exact grounded.closures id scope stored (name, value) (by simp [split])

/-- A scope may be given other bindings as long as they refer to what exists. -/
theorem modify (target : ScopeId) (change : Scope → Scope)
    (stays : ∀ scope, (change scope).enclosing = scope.enclosing)
    (carries : ∀ scope, (∀ binding ∈ scope.bindings, heap.Carries binding.2) →
      ∀ binding ∈ (change scope).bindings, heap.Carries binding.2) :
    (heap.modify target change).Grounded globals := by
  have grows := Grows.modify heap target change
  have stored (id : ScopeId) : (heap.modify target change).scopes[id]? =
      if target = id then heap.scopes[id]?.map change else heap.scopes[id]? := by
    rw [Heap.modify, Array.getElem?_modify]
  have origin {id : ScopeId} {scope : Scope}
      (found : (heap.modify target change).scopes[id]? = some scope) :
      ∃ old, heap.scopes[id]? = some old ∧ scope.enclosing = old.enclosing ∧
        ∀ binding ∈ scope.bindings, heap.Carries binding.2 := by
    rw [stored] at found
    split at found
    · obtain ⟨old, present, rfl⟩ := Option.map_eq_some_iff.1 found
      exact ⟨old, present, stays old, carries old (grounded.closures id old present)⟩
    · exact ⟨scope, found, rfl, grounded.closures id scope found⟩
  refine ⟨?_, ?_, ?_⟩
  · obtain ⟨scope, present, outermost⟩ := grounded.outermost
    rw [stored, present]
    by_cases same : target = globals
    · exact ⟨change scope, by simp [same], (stays scope).trans outermost⟩
    · exact ⟨scope, by simp [same], outermost⟩
  · intro id scope found
    obtain ⟨old, present, same, _⟩ := origin found
    rw [same]
    exact grounded.older id old present
  · intro id scope found binding member
    obtain ⟨_, _, _, all⟩ := origin found
    exact grows.carries (all binding member)

theorem update (target : ScopeId) (name : String) {value : Value} (given : heap.Carries value) :
    (heap.modify target (·.update name value)).Grounded globals := by
  refine grounded.modify target (·.update name value) (fun _ => rfl) ?_
  intro scope all binding member
  obtain ⟨old, present, rfl⟩ := List.mem_map.1 member
  dsimp only
  split
  · exact given
  · exact all old present

theorem insert (target : ScopeId) (name : String) {value : Value} (given : heap.Carries value) :
    (heap.modify target (·.insert name value)).Grounded globals := by
  refine grounded.modify target (·.insert name value) (fun _ => rfl) ?_
  intro scope all binding member
  rcases List.mem_cons.1 member with rfl | old
  · exact given
  · exact all binding old

theorem addScope {enclosing : ScopeId} (present : enclosing < heap.scopes.size) :
    (heap.addScope (some enclosing)).2.Grounded globals := by
  have grows := Grows.addScope heap (some enclosing)
  have stored (id : ScopeId) : (heap.addScope (some enclosing)).2.scopes[id]? =
      if id = heap.scopes.size then some { enclosing := some enclosing } else heap.scopes[id]? := by
    rw [Heap.addScope, Array.getElem?_push]
  refine ⟨?_, ?_, ?_⟩
  · rw [stored, if_neg (Nat.ne_of_lt grounded.globals_lt)]
    exact grounded.outermost
  · intro id scope found
    rw [stored] at found
    split at found
    · next fresh =>
      obtain rfl := Option.some.inj found
      exact .inr ⟨enclosing, fresh ▸ present, rfl⟩
    · exact grounded.older id scope found
  · intro id scope found binding member
    rw [stored] at found
    split at found
    · obtain rfl := Option.some.inj found
      cases member
    · exact grows.carries (grounded.closures id scope found binding member)

end Grounded

end Heap

/-- The regime of grounded scopes: code runs in scopes that exist, on values that refer to such. -/
def Regime.grounded : Regime where
  fits globals heap := heap.Grounded globals
  admits := Heap.Carries
  enters heap scope := scope < heap.scopes.size
  declares _ _ := True
  admits_grows grows carries := grows.carries carries
  enters_grows grows present := Nat.lt_of_lt_of_le present grows.scopes
  declares_grows _ _ := trivial
  plain := by
    intro heap value plain closure closes
    cases value <;> simp [Value.IsPlain, Value.closure?] at plain closes
  bound grounded bound := grounded.carries_bound bound
  closure carries := carries _ rfl
  update target name grounded given := grounded.update target name given
  insert grounded given _ _ := grounded.insert _ _ given
  addScope grounded present :=
    ⟨grounded.addScope present, by simp [Heap.addScope], trivial⟩
  addCallable grounded present := by
    refine ⟨⟨grounded.outermost, grounded.older, grounded.closures⟩, ?_⟩
    intro closure closes
    obtain rfl := Option.some.inj closes
    exact present

namespace Heap

/-- The way from a scope outwards, each scope inside the next, up to the last one; no scope is on it
twice. -/
structure Path (heap : Heap) (start last : ScopeId) (path : List ScopeId) : Prop where
  starts : path.head? = some start
  follows : path.IsChain fun inner outer => heap.Encloses outer inner
  ends : path.getLast? = some last
  distinct : path.Nodup

/-- How a name is looked for: scope after scope outwards, with no limit set to it, until one binds
the name or none is left. Besides what is found, it tells which scopes were looked into. -/
inductive Search (heap : Heap) (name : String) : ScopeId → List ScopeId → Option ScopeId → Prop where
  | here {id : ScopeId} (bound : (heap.local? id name).isSome) : Search heap name id [id] (some id)
  | outwards {id parent : ScopeId} {visited : List ScopeId} {found : Option ScopeId}
      (unbound : heap.local? id name = none) (encloses : heap.Encloses parent id)
      (further : Search heap name parent visited found) : Search heap name id (id :: visited) found
  | nowhere {id : ScopeId} (unbound : heap.local? id name = none)
      (outermost : ∀ outer, ¬ heap.Encloses outer id) : Search heap name id [id] none

theorem Path.cons {heap : Heap} {start parent last : ScopeId} {path : List ScopeId}
    (further : heap.Path parent last path) (encloses : heap.Encloses parent start)
    (new : start ∉ path) : heap.Path start last (start :: path) := by
  obtain ⟨others, rfl⟩ := List.head?_eq_some_iff.1 further.starts
  exact ⟨rfl, .cons_cons encloses further.follows, by simpa using further.ends,
    List.nodup_cons.2 ⟨new, further.distinct⟩⟩

namespace Grounded

variable {globals : ScopeId} {heap : Heap} (grounded : heap.Grounded globals)
include grounded

/-- What is left of a chain at a scope: nothing outside the global one, else the scopes outside the
parent. -/
theorem chainFrom_cases (count : Nat) {start : ScopeId} (present : start < heap.scopes.size) :
    (start = globals ∧ heap.chainFrom (count + 1) start = [start]) ∨
      ∃ parent, heap.Encloses parent start ∧
        heap.chainFrom (count + 1) start = start :: heap.chainFrom count parent := by
  have stored := Array.getElem?_eq_getElem present
  rw [chainFrom, stored]
  rcases grounded.older start _ stored with rfl | ⟨parent, _, encloses⟩
  · obtain ⟨_, same, outermost⟩ := grounded.outermost
    obtain rfl := Option.some.inj (stored.symm.trans same)
    simp [outermost]
  · exact .inr ⟨parent, ⟨_, stored, encloses⟩, by simp [encloses]⟩

/-- As scopes only stand inside older ones, a chain never gets longer than the number it starts
from. -/
theorem path_chainFrom {count start : Nat} (enough : start < count)
    (present : start < heap.scopes.size) :
    heap.Path start globals (heap.chainFrom count start) ∧
      ∀ scope ∈ heap.chainFrom count start, scope ≤ start := by
  induction count generalizing start with
  | zero => cases enough
  | succ count ih =>
    rcases grounded.chainFrom_cases count present with ⟨rfl, alone⟩ | ⟨parent, encloses, onwards⟩
    · rw [alone]
      exact ⟨⟨rfl, .singleton _, rfl, by simp⟩, by simp⟩
    · have older := grounded.lt_of_encloses encloses
      obtain ⟨path, below⟩ :=
        ih (Nat.lt_of_lt_of_le older (Nat.le_of_lt_succ enough)) (Nat.lt_trans older present)
      rw [onwards]
      refine ⟨path.cons encloses fun member => ?_, ?_⟩
      · exact absurd (below start member) (Nat.not_le.2 older)
      · intro scope member
        rcases List.mem_cons.1 member with rfl | later
        · exact Nat.le_refl _
        · exact Nat.le_trans (below scope later) (Nat.le_of_lt older)

theorem path_chain {start : ScopeId} (present : start < heap.scopes.size) :
    heap.Path start globals (heap.chain start) :=
  (grounded.path_chainFrom present present).1

/-- Looking for a name goes along the chain, up to the scope that binds it. -/
theorem search_chainFrom (name : String) {count start : Nat} (enough : start < count)
    (present : start < heap.scopes.size) :
    ∃ visited, visited <+: heap.chainFrom count start ∧
      heap.Search name start visited
        ((heap.chainFrom count start).find? fun scope => (heap.local? scope name).isSome) := by
  induction count generalizing start with
  | zero => cases enough
  | succ count ih =>
    by_cases bound : (heap.local? start name).isSome
    · rcases grounded.chainFrom_cases count present with ⟨_, alone⟩ | ⟨parent, _, onwards⟩
      · exact ⟨[start], by simp [alone], by simpa [alone, bound] using Search.here bound⟩
      · exact ⟨[start], by simp [onwards], by simpa [onwards, bound] using Search.here bound⟩
    · have unbound : heap.local? start name = none := by simpa using bound
      rcases grounded.chainFrom_cases count present with ⟨rfl, alone⟩ | ⟨parent, encloses, onwards⟩
      · have nowhere := Search.nowhere unbound grounded.not_encloses_globals
        exact ⟨[start], by simp [alone], by simpa [alone, unbound] using nowhere⟩
      · have older := grounded.lt_of_encloses encloses
        obtain ⟨visited, front, further⟩ :=
          ih (Nat.lt_of_lt_of_le older (Nat.le_of_lt_succ enough)) (Nat.lt_trans older present)
        refine ⟨start :: visited, ?_, ?_⟩
        · rw [onwards]
          exact (List.prefix_cons_inj start).2 front
        · simpa [onwards, unbound] using Search.outwards unbound encloses further

theorem search_binder? (name : String) {start : ScopeId} (present : start < heap.scopes.size) :
    ∃ visited, heap.Search name start visited (heap.binder? start name) ∧ visited.Nodup := by
  obtain ⟨visited, front, search⟩ := grounded.search_chainFrom name present present
  exact ⟨visited, search, (grounded.path_chain present).distinct.sublist front.sublist⟩

end Grounded

end Heap

/-- What a host asks for: the value of an expression, a program in the current scope, or statements in
a new scope inside the global one. -/
inductive Task.Hosted (globals : ScopeId) : Task → Prop where
  | evaluate (expression : Expr) : Hosted globals (.evaluate expression)
  | interpret (statements : List Stmt) : Hosted globals (.interpret statements)
  | block (statements : List Stmt) : Hosted globals (.executeBlock globals statements)

/-- A machine between two tasks, however the tasks before have ended. -/
inductive Machine.Resting (readings : Nat → Int64) : Machine → Prop where
  | start : Resting readings (Machine.start readings)
  | served {machine : Machine} {task : Task} (fuel : Nat) (resting : Resting readings machine)
      (hosted : task.Hosted machine.globals) : Resting readings (task.run fuel machine).2

/-- A machine between two tasks or in the middle of one. -/
inductive Machine.Reachable (readings : Nat → Int64) : Machine → Prop where
  | resting {machine : Machine} (resting : Resting readings machine) : Reachable readings machine
  | passed {machine between : Machine} {task : Task} (fuel : Nat) (resting : Resting readings machine)
      (hosted : task.Hosted machine.globals)
      (among : between ∈ (task.traced fuel).history machine) : Reachable readings between

theorem Task.Hosted.kept {machine : Machine} {task : Task} (hosted : task.Hosted machine.globals)
    (fuel : Nat) (holds : Regime.grounded.Holds machine) :
    Regime.grounded.Kept anything machine (task.traced fuel machine) := by
  cases hosted with
  | evaluate expression =>
    exact ((Regime.grounded.kept_evaluation fuel).1 expression machine holds).forget
  | interpret statements => exact Regime.grounded.kept_interpret fuel statements holds trivial
  | block statements =>
    exact (Regime.grounded.kept_block fuel statements holds holds.heap.globals_lt).forget

/-- At the start there is one scope, and the functions in it close over nothing. -/
theorem Machine.start_grounded (readings : Nat → Int64) :
    Regime.grounded.Holds (Machine.start readings) := by
  have outermost : (Machine.start readings).heap.scopes[0]?.map Scope.enclosing = some none := rfl
  have closed : (((Machine.start readings).heap.scopes[0]?.map Scope.bindings).getD []).filterMap
      (fun binding => binding.2.closure?) = [] := rfl
  have only {id : ScopeId} {scope : Scope}
      (stored : (Machine.start readings).heap.scopes[id]? = some scope) : id = 0 :=
    Nat.lt_one_iff.1 (Array.getElem?_eq_some_iff.1 stored).1
  refine ⟨⟨Option.map_eq_some_iff.1 outermost, fun id scope stored => .inl (only stored), ?_⟩,
    Nat.one_pos⟩
  intro id scope stored binding member closure closes
  obtain rfl := only stored
  rw [stored] at closed
  exact absurd closes (by simp [List.filterMap_eq_nil_iff.1 closed binding member])

theorem Machine.Resting.grounded {readings : Nat → Int64} {machine : Machine}
    (resting : machine.Resting readings) : Regime.grounded.Holds machine := by
  induction resting with
  | start => exact Machine.start_grounded readings
  | @served machine task fuel _ hosted ih =>
    have same := task.holds_of_compositional Traced.compositional_result fuel
    exact ((hosted.kept fuel ih).leads_of_result same).holds

theorem Machine.Reachable.grounded {readings : Nat → Int64} {machine : Machine}
    (reachable : machine.Reachable readings) : Regime.grounded.Holds machine := by
  cases reachable with
  | resting resting => exact resting.grounded
  | passed fuel resting hosted among => exact (hosted.kept fuel resting.grounded).passed _ among

/-- On every machine a host can bring about, between tasks or in the middle of one and whatever has
failed before: the current scope exists, scopes stand inside older ones, functions close over scopes
that exist, and nothing stands around the global scope. So the way outwards from any scope meets no
scope twice and ends in the global one; and reading a name and assigning to it come to an end
without looking into any scope twice. -/
theorem scope_chains_grounded {readings : Nat → Int64} {machine : Machine}
    (reachable : machine.Reachable readings) :
    machine.scope < machine.heap.scopes.size ∧
    (∀ (id : ScopeId) (scope : Scope), machine.heap.scopes[id]? = some scope →
      (∀ parent, scope.enclosing = some parent → parent < id ∧ parent < machine.heap.scopes.size) ∧
      ∀ binding ∈ scope.bindings, ∀ closure, binding.2.closure? = some closure →
        closure < machine.heap.scopes.size) ∧
    (∀ outer, ¬ machine.heap.Encloses outer machine.globals) ∧
    ∀ id < machine.heap.scopes.size,
      machine.heap.Path id machine.globals (machine.heap.chain id) ∧
      ∀ name : Token, ∃ visited found,
        machine.heap.Search name.lexeme id visited found ∧ visited.Nodup ∧
        (machine.heap.get id name =
          match found.bind (machine.heap.local? · name.lexeme) with
          | some value => .ok value
          | none => .error (Heap.undefinedName name)) ∧
        ∀ value, machine.heap.assign id name value =
          match found with
          | some binder => .ok (machine.heap.modify binder (·.update name.lexeme value))
          | none => .error (Heap.undefinedName name) := by
  obtain ⟨grounded, inside⟩ := reachable.grounded
  refine ⟨inside, ?_, grounded.not_encloses_globals, ?_⟩
  · intro id scope stored
    refine ⟨?_, grounded.closures id scope stored⟩
    intro parent encloses
    have older := grounded.lt_of_encloses ⟨scope, stored, encloses⟩
    exact ⟨older, Nat.lt_trans older (Array.getElem?_eq_some_iff.1 stored).1⟩
  · intro id present
    refine ⟨grounded.path_chain present, ?_⟩
    intro name
    obtain ⟨visited, search, distinct⟩ := grounded.search_binder? name.lexeme present
    exact ⟨visited, _, search, distinct, rfl, fun _ => rfl⟩

private def ident (lexeme : String) : Token :=
  { kind := .identifier, lexeme, line := 1, span := ⟨0, 1⟩ }

/-- `fun outer() { fun inner() {} lost; } outer();` -/
private def enclosed : List Stmt :=
  [.function (ident "outer") []
      [.function (ident "inner") [] [], .expression (.var (ident "lost"))],
    .expression (.call (.var (ident "outer")) (ident ")") [])]

/-- Every machine on the way, up to the failure at `lost`. -/
private def passedBy : List Machine :=
  ((Task.interpret enclosed).traced 6).history (Machine.start fun _ => 0)

/-- The machine that has just declared `inner`. -/
private def insideOuter : Machine := passedBy.get ⟨9, by decide +kernel⟩

/-- In the middle of a call, a function closes over the very scope that binds it; the way outwards from
there is still that scope and the global one. -/
theorem chain_inside_call_grounded :
    insideOuter.Reachable (fun _ => 0) ∧ insideOuter.scope = 1 ∧
      (insideOuter.heap.local? 1 "inner").bind Value.closure? = some 1 ∧
      insideOuter.heap.chain 1 = [1, 0] ∧
      insideOuter.heap.Path 1 insideOuter.globals (insideOuter.heap.chain 1) ∧
      ∃ visited found, insideOuter.heap.Search "outer" 1 visited found ∧ visited.Nodup := by
  have reachable : insideOuter.Reachable fun _ => 0 :=
    .passed 6 .start (.interpret enclosed) (List.get_mem passedBy _)
  obtain ⟨_, _, _, chains⟩ := scope_chains_grounded reachable
  obtain ⟨path, searches⟩ := chains 1 (by decide +kernel)
  obtain ⟨visited, found, search, distinct, _⟩ := searches (ident "outer")
  exact ⟨reachable, by decide +kernel, by decide +kernel, by decide +kernel, path, visited, found,
    search, distinct⟩

end TinyScript
