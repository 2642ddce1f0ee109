import TinyScript.Proofs.Stores

/-! A register of callables. It lists the routines of all callables that have been made, each at the
place of its identity, so it only gets longer. Every function that a run stores or passes on is in the
register that the run leaves, under its own identity and with its own routine. -/
namespace TinyScript

/-- The value is no function, or the register lists its routine at the place of its identity. -/
def Value.ListedIn (register : List Routine) : Value → Prop
  | .callable made => register[made.identity]? = some made.routine
  | _ => True

/-- The register lists all callables that have been made, and all functions that are stored. -/
structure Heap.ListedIn (register : List Routine) (heap : Heap) : Prop where
  counted : heap.callables = register.length
  stores : heap.Stores (Value.ListedIn register)

namespace Value

variable {register longer : List Routine} {value : Value}

theorem IsPlain.listedIn (plain : value.IsPlain) : value.ListedIn register := by
  cases value <;> trivial

theorem ListedIn.mono (front : register <+: longer) (listed : value.ListedIn register) :
    value.ListedIn longer := by
  obtain ⟨more, rfl⟩ := front
  cases value with
  | callable made =>
    obtain ⟨within, _⟩ := List.getElem?_eq_some_iff.1 listed
    exact (List.getElem?_append_left within).trans listed
  | _ => trivial

/-- The identity of a function that is listed has been given away. -/
theorem ListedIn.identity_lt {made : Callable} (listed : (callable made).ListedIn register) :
    made.identity < register.length :=
  (List.getElem?_eq_some_iff.1 listed).1

end Value

namespace Heap.ListedIn

variable {register : List Routine} {heap : Heap}

theorem callables_le (listed : heap.ListedIn (register.take heap.callables)) :
    heap.callables ≤ register.length := by
  have counted := listed.counted
  rw [List.length_take] at counted
  omega

theorem mono_take {longer : List Routine} (front : register <+: longer)
    (listed : heap.ListedIn (register.take heap.callables)) :
    heap.ListedIn (longer.take heap.callables) := by
  obtain ⟨more, rfl⟩ := front
  rwa [List.take_append_of_le_length listed.callables_le]

theorem take (listed : heap.ListedIn register) : heap.ListedIn (register.take heap.callables) := by
  rwa [listed.counted, List.take_length]

theorem modify (listed : heap.ListedIn register) (id : ScopeId) {change : Scope → Scope}
    (keeps : ∀ scope : Scope, scope.Stores (Value.ListedIn register) →
      (change scope).Stores (Value.ListedIn register)) : (heap.modify id change).ListedIn register :=
  ⟨listed.counted, listed.stores.modify id keeps⟩

theorem addScope (listed : heap.ListedIn register) (enclosing : Option ScopeId) :
    (heap.addScope enclosing).2.ListedIn register :=
  ⟨listed.counted, listed.stores.addScope enclosing⟩

/-- A new callable is listed behind all others. -/
theorem addCallable (listed : heap.ListedIn register) (routine : Routine) :
    (heap.addCallable routine).2.ListedIn (register ++ [routine]) ∧
      (Value.callable (heap.addCallable routine).1).ListedIn (register ++ [routine]) := by
  have longer : register <+: register ++ [routine] := List.prefix_append _ _
  refine ⟨⟨?_, listed.stores.imp fun value known => known.mono longer⟩, ?_⟩
  · show heap.callables + 1 = _
    rw [listed.counted, List.length_append]
    rfl
  · show (register ++ [routine])[heap.callables]? = some routine
    rw [listed.counted, List.getElem?_concat_length]

end Heap.ListedIn

/-- The later machine has made no fewer callables. -/
def Machine.Precedes (earlier later : Machine) : Prop :=
  earlier.heap.callables ≤ later.heap.callables

/-- What has been recorded from a machine and a register on: a longer register lists the last heap and
the value if there is one, and as much of it as was known then lists each heap on the way. -/
structure Tells {α : Type} (listed : List Routine → α → Prop) (register final : List Routine)
    (machine : Machine) (recorded : Record α) : Prop where
  front : register <+: final
  heap : recorded.ending.2.heap.ListedIn final
  value : ∀ value, recorded.ending.1 = .done value → listed final value
  passed : ∀ between ∈ recorded.passed, between.heap.ListedIn (final.take between.heap.callables)
  ordered : (machine :: recorded.passed).Pairwise Machine.Precedes

/-- From any machine listed in this register, the computation makes the register longer so that it lists
all that the computation stores and gives. -/
def Traced.Lists {α : Type} (listed : List Routine → α → Prop) (register : List Routine)
    (traced : Traced α) : Prop :=
  ∀ machine, machine.heap.ListedIn register →
    ∃ final, Tells listed register final machine (traced machine)

namespace Traced.Lists

section Rules

variable {α β : Type} {listed : List Routine → α → Prop} {results : List Routine → β → Prop}
variable {register : List Routine}

theorem pure {value : α} (given : listed register value) :
    Lists listed register (Pure.pure value) := by
  intro machine fits
  refine ⟨register, List.prefix_rfl, fits, ?_, nofun, List.pairwise_singleton _ _⟩
  rintro _ ⟨⟩
  exact given

theorem step {run : Run α}
    (each : ∀ machine, machine.heap.ListedIn register →
      ∃ final, register <+: final ∧ (run machine).2.heap.ListedIn final ∧
        ∀ value, (run machine).1 = .done value → listed final value) :
    Lists listed register (Traced.step run) := by
  intro machine fits
  obtain ⟨final, further, heap, value⟩ := each machine fits
  have later : machine.Precedes (run machine).2 := by
    rw [Machine.Precedes, fits.counted, heap.counted]
    exact further.length_le
  exact ⟨final, further, heap, value, List.forall_mem_singleton.2 heap.take,
    List.pairwise_pair.2 later⟩

/-- A step that leaves the heap alone needs no longer register. -/
theorem look {run : Run α} (same : ∀ machine, (run machine).2.heap = machine.heap)
    (gives : ∀ machine value, machine.heap.ListedIn register →
      (run machine).1 = .done value → listed register value) :
    Lists listed register (Traced.step run) := by
  refine step fun machine fits => ⟨register, List.prefix_rfl, ?_, ?_⟩
  · rw [same]
    exact fits
  · intro value
    exact gives machine value fits

theorem bind {first : Traced α} {next : α → Traced β} (lists : Lists listed register first)
    (onwards : ∀ known value, register <+: known → listed known value →
      Lists results known (next value)) : Lists results register (first >>= next) := by
  intro machine fits
  obtain ⟨between, further, heap, value, passed, ordered⟩ := lists machine fits
  change ∃ final, Tells results register final machine (Traced.bind first next machine)
  unfold Traced.bind
  rcases recorded : first machine with ⟨⟨outcome, reached⟩, before, _⟩
  rw [recorded] at heap value passed ordered
  cases outcome with
  | done answer =>
    obtain ⟨final, last, heapLater, result, later, orderedLater⟩ :=
      onwards between answer further (value answer rfl) reached heap
    refine ⟨final, further.trans last, heapLater, result, List.forall_mem_append.2 ⟨?_, later⟩, ?_⟩
    · exact fun earlier among => (passed earlier among).mono_take last
    · obtain ⟨behind, orderedBehind⟩ := List.pairwise_cons.1 orderedLater
      refine List.pairwise_append.2 ⟨ordered, orderedBehind, ?_⟩
      -- The machine where the parts meet lies between those of the first and those of the second.
      intro earlier among other member
      refine Nat.le_trans ?_ (behind other member)
      rw [heap.counted]
      rcases List.mem_cons.1 among with rfl | among
      · exact fits.counted ▸ further.length_le
      · exact (passed earlier among).callables_le
  | failed error => exact ⟨between, further, heap, nofun, passed, ordered⟩
  | exhausted => exact ⟨between, further, heap, nofun, passed, ordered⟩

/-- On a detour, the machines between entering and leaving are those of the body. -/
theorem detour {final : List Routine} {machine entered left : Machine} {recorded : Record α}
    (fits : entered.heap.ListedIn register) (enters : machine.heap = entered.heap)
    (tells : Tells listed register final entered recorded)
    (same : left.heap = recorded.ending.2.heap) :
    Tells listed register final machine (recorded.detour entered left) := by
  obtain ⟨front, heap, value, passed, ordered⟩ := tells
  have back : left.heap.ListedIn final := same ▸ heap
  have inside : ∀ between ∈ entered :: recorded.passed,
      between.heap.ListedIn (final.take between.heap.callables) :=
    List.forall_mem_cons.2 ⟨fits.take.mono_take front, passed⟩
  have onTheWay : ∀ between ∈ entered :: recorded.passed ++ [left],
      between.heap.ListedIn (final.take between.heap.callables) :=
    List.forall_mem_append.2 ⟨inside, List.forall_mem_singleton.2 back.take⟩
  have last : (entered :: recorded.passed ++ [left]).Pairwise Machine.Precedes := by
    refine List.pairwise_append.2 ⟨ordered, List.pairwise_singleton _ _, fun between among => ?_⟩
    refine List.forall_mem_singleton.2 ?_
    rw [Machine.Precedes, back.counted]
    exact (inside between among).callables_le
  refine ⟨front, back, value, onTheWay, List.pairwise_cons.2 ⟨fun between among => ?_, last⟩⟩
  rcases List.mem_cons.1 among with rfl | further
  · exact Nat.le_of_eq (congrArg Heap.callables enters)
  · exact Nat.le_trans (Nat.le_of_eq (congrArg Heap.callables enters))
      ((List.pairwise_cons.1 last).1 between further)

theorem inScope {body : Traced α} (scope : ScopeId) (lists : Lists listed register body) :
    Lists listed register (body.inScope scope) := by
  intro machine fits
  obtain ⟨final, tells⟩ := lists { machine with scope } fits
  exact ⟨final, detour fits rfl tells rfl⟩

theorem fail (cause : RuntimeCause) (token : Token) :
    Lists listed register (Traced.step (Run.fail cause token)) :=
  look (fun _ => rfl) nofun

theorem nested {body : Traced α} (paren : Token) (lists : Lists listed register body) :
    Lists listed register (body.nested paren) := by
  intro machine fits
  unfold Traced.nested
  by_cases full : depthLimit ≤ machine.depth
  · rw [if_pos full]
    exact fail .stackOverflow paren machine fits
  · rw [if_neg full]
    obtain ⟨final, tells⟩ := lists { machine with depth := machine.depth + 1 } fits
    exact ⟨final, detour fits rfl tells rfl⟩

theorem forget {traced : Traced α} (lists : Lists listed register traced) :
    Lists anything register traced := by
  intro machine fits
  obtain ⟨final, further, heap, _, passed, ordered⟩ := lists machine fits
  exact ⟨final, further, heap, fun _ _ => trivial, passed, ordered⟩

end Rules

section Steps

variable {register : List Routine}

theorem exhausted {α : Type} {listed : List Routine → α → Prop} :
    Lists listed register (Traced.step Run.exhausted) :=
  look (fun _ => rfl) nofun

theorem ofExcept {answer : Except RuntimeError Value}
    (plain : ∀ value, answer = .ok value → value.IsPlain) :
    Lists Value.ListedIn register (Traced.step (Run.ofExcept answer)) := by
  cases answer with
  | ok value =>
    refine look (fun _ => rfl) ?_
    rintro machine _ _ ⟨⟩
    exact (plain value rfl).listedIn
  | error error => exact look (fun _ => rfl) nofun

theorem apply (application : Application) :
    Lists Value.ListedIn register (Traced.apply application) := by
  have lists : Lists Value.ListedIn register (Traced.step (Run.ofExcept application.result)) :=
    ofExcept fun _ => isPlain_of_applyOperator
  intro machine fits
  obtain ⟨final, front, heap, value, passed, ordered⟩ := lists machine fits
  exact ⟨final, front, heap, value, passed, ordered⟩

theorem lookup (name : Token) : Lists Value.ListedIn register (Traced.step (Run.lookup name)) := by
  refine look ?_ ?_
  · intro machine
    unfold Run.lookup
    split <;> rfl
  · intro machine value fits gives
    unfold Run.lookup Heap.get at gives
    cases found : machine.heap.find? machine.scope name.lexeme with
    | none => simp [found] at gives
    | some stored =>
      obtain rfl : stored = value := by simpa [found] using gives
      obtain ⟨binder, _, bound⟩ := Option.bind_eq_some_iff.1 found
      exact fits.stores.bound bound

/-- A change of the heap that stores listed values and makes no callable. -/
theorem onHeap {change : Heap → ScopeId → Except RuntimeError Heap}
    (changes : ∀ heap scope after, heap.ListedIn register →
      change heap scope = .ok after → after.ListedIn register) :
    Lists anything register (Traced.step (Run.onHeap change)) := by
  refine step fun machine fits => ⟨register, List.prefix_rfl, ?_, fun _ _ => trivial⟩
  unfold Run.onHeap
  cases changed : change machine.heap machine.scope with
  | ok after => exact changes _ _ after fits changed
  | error error => exact fits

section Names

variable (name : Token) {value : Value} (given : value.ListedIn register)
include given

theorem assign : Lists anything register (Traced.step (Run.assign name value)) := by
  refine onHeap fun heap scope after fits assigned => ?_
  obtain ⟨binder, rfl⟩ := Heap.eq_of_assign assigned
  exact fits.modify _ fun _ kept => kept.update name.lexeme given

/-- Declares a name in a scope that may depend on the current one. -/
theorem defineAt (target : ScopeId → ScopeId) : Lists anything register
    (Traced.step (Run.onHeap fun heap scope => heap.define (target scope) name value)) := by
  refine onHeap fun heap scope after fits declared => ?_
  obtain rfl := Heap.eq_of_define declared
  exact fits.modify _ fun _ kept => kept.insert name.lexeme given

end Names

theorem newScope (enclosing : ScopeId) :
    Lists anything register (Traced.step (Run.newScope enclosing)) :=
  step fun _ fits => ⟨register, List.prefix_rfl, fits.addScope _, fun _ _ => trivial⟩

/-- This is where a register gets longer. -/
theorem newCallable (routine : Routine) :
    Lists (fun known callable => (Value.callable callable).ListedIn known) register
      (Traced.step (Run.newCallable routine)) := by
  refine step fun machine fits => ?_
  obtain ⟨heap, made⟩ := fits.addCallable routine
  refine ⟨register ++ [routine], List.prefix_append _ _, heap, ?_⟩
  rintro _ ⟨⟩
  exact made

theorem callNative (builtin : Native) (arguments : List Value) (paren : Token) :
    Lists Value.ListedIn register (Traced.step (TinyScript.callNative builtin arguments paren)) := by
  cases builtin with
  | clock | print | println =>
    refine look (fun _ => rfl) ?_
    rintro _ _ _ ⟨⟩
    trivial
  | inHex =>
    unfold TinyScript.callNative
    cases arguments.mapM Value.hexText? with
    | some texts =>
      refine look (fun _ => rfl) ?_
      rintro _ _ _ ⟨⟩
      trivial
    | none => exact fail .invalidHexArgument paren

end Steps

end Traced.Lists

/-- Runs that keep a register hold to a conduct. Code holds no function values, so any code does. -/
def Conduct.register : Conduct .all where
  World := List Routine
  later register longer := register <+: longer
  admits := Value.ListedIn
  enters := anything
  opened := anything
  declares _ := True
  holds := Traced.Lists
  admits_later front listed := listed.mono front
  opened_later _ _ := trivial
  declares_later _ _ := trivial
  primitive value := (Value.isPlain_ofPrimitive value).listedIn
  closure _ := ⟨trivial, trivial⟩
  pure given := .pure given
  bind lists onwards := lists.bind onwards
  inScope _ lists := .inScope _ (lists _ trivial)
  nested _ lists := .nested _ (lists _ fun _ => id)
  exhausted := .exhausted
  fail _ _ := .fail _ _
  sign _ := .ofExcept fun _ => isPlain_of_applySign
  counted _ := .ofExcept fun _ => isPlain_of_stepped
  apply _ := .apply _
  lookup _ := .lookup _
  assign _ given := .assign _ given
  define _ _ given := .defineAt _ given id
  defineIn _ _ given := .defineAt _ given fun _ => _
  currentScope := .look (fun _ => rfl) fun _ _ _ _ => trivial
  newScope _ := .newScope _
  newCallable _ _ := .newCallable _
  native _ := .callNative _ _ _

end TinyScript
