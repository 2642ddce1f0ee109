import TinyScript.Proofs.Trace

/-! Coming back. A machine that has evaluated something is again in the scope and at the call depth
it started from, whatever came of the evaluation, and on the way its calls never nested deeper than
the limit. -/
namespace TinyScript

/-- The later machine is in the scope and at the call depth of the earlier one, among the same
globals, and has every scope the earlier one had. -/
structure Machine.Restored (before after : Machine) : Prop where
  scope : after.scope = before.scope
  globals : after.globals = before.globals
  depth : after.depth = before.depth
  scopes : before.heap.scopes.size ≤ after.heap.scopes.size

namespace Machine.Restored

theorem refl (machine : Machine) : machine.Restored machine :=
  ⟨rfl, rfl, rfl, Nat.le_refl _⟩

theorem trans {first second third : Machine} (earlier : first.Restored second)
    (later : second.Restored third) : first.Restored third :=
  ⟨later.scope.trans earlier.scope, later.globals.trans earlier.globals,
    later.depth.trans earlier.depth, Nat.le_trans earlier.scopes later.scopes⟩

theorem depth_le {before after : Machine} (restored : before.Restored after)
    (bound : before.depth ≤ depthLimit) : after.depth ≤ depthLimit := by
  rw [restored.depth]
  exact bound

end Machine.Restored

namespace Run

theorem lookup_restored (name : Token) (machine : Machine) :
    machine.Restored (lookup name machine).2 := by
  simp only [lookup]
  cases machine.heap.get machine.scope name with
  | ok value => exact .refl machine
  | error error => exact .refl machine

theorem newScope_grows (enclosing : ScopeId) (machine : Machine) :
    machine.Restored (newScope enclosing machine).2 ∧
      machine.heap.scopes.size < (newScope enclosing machine).2.heap.scopes.size := by
  have grows : machine.heap.scopes.size <
      (newScope enclosing machine).2.heap.scopes.size := by
    simp [newScope, Heap.addScope]
  exact ⟨⟨rfl, rfl, rfl, Nat.le_of_lt grows⟩, grows⟩

/-- A change that loses no scope loses none when a machine makes it, or fails to. -/
theorem onHeap_restored {change : Heap → ScopeId → Except RuntimeError Heap}
    (keeps : ∀ heap scope changed, change heap scope = .ok changed →
      heap.scopes.size ≤ changed.scopes.size) (machine : Machine) :
    machine.Restored (onHeap change machine).2 := by
  cases made : change machine.heap machine.scope with
  | ok heap =>
    have kept := keeps machine.heap machine.scope heap made
    simp only [onHeap, made]
    exact ⟨rfl, rfl, rfl, kept⟩
  | error error =>
    simp only [onHeap, made]
    exact .refl machine

theorem assign_restored (name : Token) (value : Value) (machine : Machine) :
    machine.Restored (assign name value machine).2 := by
  apply onHeap_restored
  intro heap scope changed made
  obtain ⟨binder, rfl⟩ := Heap.eq_of_assign made
  simp [Heap.modify]

theorem defineIn_restored (scope : ScopeId) (name : Token) (value : Value) (machine : Machine) :
    machine.Restored (defineIn scope name value machine).2 := by
  apply onHeap_restored
  intro heap _ changed made
  obtain rfl := Heap.eq_of_define made
  simp [Heap.modify]

theorem callNative_restored (builtin : Native) (arguments : List Value) (paren : Token)
    (machine : Machine) : machine.Restored (callNative builtin arguments paren machine).2 := by
  cases builtin with
  | clock => exact ⟨rfl, rfl, rfl, Nat.le_refl _⟩
  | print => exact ⟨rfl, rfl, rfl, Nat.le_refl _⟩
  | println => exact ⟨rfl, rfl, rfl, Nat.le_refl _⟩
  | inHex =>
    simp only [callNative]
    cases arguments.mapM Value.hexText? with
    | some texts => exact ⟨rfl, rfl, rfl, Nat.le_refl _⟩
    | none => exact .refl machine

theorem Elementary.restored {α : Type} {run : Run α} (elementary : run.Elementary)
    (machine : Machine) : machine.Restored (run machine).2 := by
  cases elementary with
  | exhausted => exact .refl machine
  | fail cause token => exact .refl machine
  | ofExcept answer => cases answer <;> exact .refl machine
  | lookup name => exact lookup_restored name machine
  | assign name value => exact assign_restored name value machine
  | define name value => exact defineIn_restored machine.scope name value machine
  | defineIn scope name value => exact defineIn_restored scope name value machine
  | currentScope => exact .refl machine
  | newScope enclosing => exact (newScope_grows enclosing machine).1
  | newCallable routine => exact ⟨rfl, rfl, rfl, Nat.le_refl _⟩
  | native builtin arguments paren => exact callNative_restored builtin arguments paren machine

end Run

namespace Traced

variable {α β : Type}

/-- The computation comes back to where it started, and on the way keeps to the limit on the depth
of calls. -/
def Balanced (traced : Traced α) : Prop :=
  ∀ machine, machine.depth ≤ depthLimit →
    machine.Restored (traced.result machine).2 ∧
    ∀ passed ∈ traced.history machine, passed.depth ≤ depthLimit

theorem balanced_step {run : Run α} (elementary : run.Elementary) : (step run).Balanced := by
  intro machine bound
  have restored := elementary.restored machine
  refine ⟨restored, ?_⟩
  intro passed among
  obtain rfl := List.mem_singleton.mp among
  exact restored.depth_le bound

theorem balanced_bind {first : Traced α} {next : α → Traced β} (balanced : first.Balanced)
    (each : ∀ value, (next value).Balanced) : (first >>= next).Balanced := by
  intro machine bound
  obtain ⟨restored, kept⟩ := balanced machine bound
  change machine.Restored (Traced.bind first next machine).ending.2 ∧
    ∀ passed ∈ (Traced.bind first next machine).passed, passed.depth ≤ depthLimit
  rcases ended : first machine with ⟨⟨outcome, reached⟩, passed, applied⟩
  simp only [result, history, ended] at restored kept
  simp only [Traced.bind, ended]
  cases outcome with
  | done value =>
    -- The first part has come back, so the second one starts within the limit as well.
    obtain ⟨again, after⟩ := each value reached (restored.depth_le bound)
    refine ⟨restored.trans again, ?_⟩
    intro machine among
    rcases List.mem_append.mp among with before | later
    · exact kept machine before
    · exact after machine later
  | failed error => exact ⟨restored, kept⟩
  | exhausted => exact ⟨restored, kept⟩

/-- On a detour, the machines between entering and leaving are those of the body. -/
theorem depth_of_detour {entered left : Machine} {inside : List Machine}
    (into : entered.depth ≤ depthLimit) (kept : ∀ passed ∈ inside, passed.depth ≤ depthLimit)
    (out : left.depth ≤ depthLimit) :
    ∀ passed ∈ entered :: inside ++ [left], passed.depth ≤ depthLimit := by
  intro passed among
  simp only [List.cons_append, List.mem_cons, List.mem_append, List.not_mem_nil, or_false] at among
  rcases among with rfl | within | rfl
  · exact into
  · exact kept passed within
  · exact out

theorem balanced_inScope {body : Traced α} (scope : ScopeId) (balanced : body.Balanced) :
    (body.inScope scope).Balanced := by
  intro machine bound
  obtain ⟨restored, kept⟩ := balanced { machine with scope } bound
  refine ⟨⟨rfl, restored.globals, restored.depth, restored.scopes⟩, ?_⟩
  exact depth_of_detour bound kept (restored.depth_le bound)

theorem balanced_nested {body : Traced α} (paren : Token) (balanced : body.Balanced) :
    (body.nested paren).Balanced := by
  intro machine bound
  by_cases full : depthLimit ≤ machine.depth
  · have refused : body.nested paren machine = step (Run.fail .stackOverflow paren) machine := by
      simp only [nested, full, if_true]
    simp only [result, history, refused]
    exact balanced_step (.fail .stackOverflow paren) machine bound
  · have room : machine.depth + 1 ≤ depthLimit := by omega
    obtain ⟨restored, kept⟩ := balanced { machine with depth := machine.depth + 1 } room
    have back : (body.result { machine with depth := machine.depth + 1 }).2.depth - 1 =
        machine.depth := by
      rw [restored.depth, Nat.add_sub_cancel]
    simp only [result, history, nested, full, if_false, Record.detour]
    refine ⟨⟨restored.scope, restored.globals, back, restored.scopes⟩, ?_⟩
    exact depth_of_detour room kept (Nat.le_trans (Nat.le_of_eq back) bound)

theorem compositional_balanced : Compositional fun _ traced _ => traced.Balanced where
  pure value := fun machine _ => ⟨.refl machine, by simp [history, pure, Traced.pure]⟩
  step := balanced_step
  apply application := balanced_step (.ofExcept application.result)
  bind := balanced_bind
  inScope := balanced_inScope
  nested := balanced_nested

/-- The history of a run, which is balanced, shows where the run itself comes back to. -/
theorem compositional_history :
    Compositional fun _ traced run => traced.result = run ∧ traced.Balanced :=
  compositional_result.and compositional_balanced

theorem restored_of_history {traced : Traced α} {run : Run α}
    (recorded : traced.result = run ∧ traced.Balanced) (machine : Machine)
    (bound : machine.depth ≤ depthLimit) : machine.Restored (run machine).2 := by
  obtain ⟨rfl, balanced⟩ := recorded
  exact (balanced machine bound).1

end Traced

end TinyScript
