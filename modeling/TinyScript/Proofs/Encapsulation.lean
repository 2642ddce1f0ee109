import TinyScript.Proofs.LikeRun

/-! Closures keep their state to themselves: what a program cannot reach from its current scope, by
enclosing scopes and by the closures of the functions it finds there, it neither changes nor
depends on. -/
namespace TinyScript

/-- The scopes that can be reached from one: by going outwards, and by way of the functions that a
reached scope binds. -/
inductive Heap.Reaches (heap : Heap) (start : ScopeId) : ScopeId → Prop where
  | here : Reaches heap start start
  | outwards {id parent : ScopeId} {scope : Scope} (reached : Reaches heap start id)
      (stored : heap.scopes[id]? = some scope) (encloses : scope.enclosing = some parent) :
      Reaches heap start parent
  | closure {id closure : ScopeId} {name : String} {value : Value}
      (reached : Reaches heap start id) (bound : heap.local? id name = some value)
      (closes : value.closure? = some closure) : Reaches heap start closure

/-- The scopes that can be reached from the current one. -/
def Machine.Reaches (machine : Machine) : ScopeId → Prop := machine.heap.Reaches machine.scope

/-- The same bindings inside the same scope. -/
structure Scope.Agrees (scope other : Scope) : Prop where
  enclosing : scope.enclosing = other.enclosing
  values : ∀ name, scope.find? name = other.find? name

/-- The machines are the same but for what stands in scopes outside the given part. -/
structure Machine.AgreesOn (part : ScopeId → Prop) (machine other : Machine) : Prop where
  size : machine.heap.scopes.size = other.heap.scopes.size
  callables : machine.heap.callables = other.heap.callables
  contents : ∀ id, part id →
    Option.Rel Scope.Agrees machine.heap.scopes[id]? other.heap.scopes[id]?
  globals : machine.globals = other.globals
  scope : machine.scope = other.scope
  depth : machine.depth = other.depth
  output : machine.output = other.output
  clock : machine.clock = other.clock

/-- The run leaves alone whatever it cannot reach, and does the same whatever stands there. -/
structure Run.Encapsulated {α : Type} (run : Run α) : Prop where
  unchanged : ∀ (machine : Machine) (id : ScopeId), id < machine.heap.scopes.size →
    ¬ machine.Reaches id → (run machine).2.heap.scopes[id]? = machine.heap.scopes[id]?
  independent : ∀ machine other : Machine, machine.AgreesOn machine.Reaches other →
    (run machine).1 = (run other).1 ∧
      (run machine).2.AgreesOn (fun id => machine.Reaches id ∨ machine.heap.scopes.size ≤ id)
        (run other).2

/-- What can be reached on the first machine or is not there yet is seen. -/
def View.ofReach (machine other : Machine) : View where
  toLikeness := Likeness.exact
  -- What can be reached changes as the program runs, but never beyond what it could reach at the
  -- start and what it has made since.
  seen id := machine.Reaches id ∨ machine.heap.scopes.size ≤ id
  left id := machine.heap.scopes[id]?
  right id := other.heap.scopes[id]?

namespace View.ofReach

variable {machine other : Machine}

theorem value_eq {value value' : Value} (same : value.Like (ofReach machine other) value') :
    value = value' := by
  cases same with
  | @declared identity function function' same =>
    obtain ⟨name, parameters, body, closure⟩ := function
    obtain ⟨name', parameters', body', closure'⟩ := function'
    obtain ⟨rfl, given, alike, rfl, _⟩ := same
    obtain rfl : parameters = parameters' := Likeness.exact.tokens_eq given
    obtain rfl : body = body' := Likeness.exact.stmts_eq _ _ alike
    rfl
  | _ => rfl

theorem flow_eq {flow flow' : Flow} (same : flow.Like (ofReach machine other) flow') :
    flow = flow' := by
  cases same with
  | normal => rfl
  | returned same => rw [value_eq same]

theorem outcome_eq {α : Type} {values : α → α → Prop}
    (exact : ∀ value value', values value value' → value = value')
    {outcome outcome' : Outcome RuntimeError α}
    (same : outcome.Like Likeness.exact values outcome') : outcome = outcome' := by
  cases same with
  | done same => rw [exact _ _ same]
  | failed same =>
    cases same with
    | atName cause same => rw [show _ = _ from same]
    | atMark cause same => rw [show _ = _ from same]
  | exhausted => rfl

/-- What a reached scope refers to can be reached. -/
theorem scope_alike {id : ScopeId} (reached : machine.Reaches id) {scope scope' : Scope}
    (stored : machine.heap.scopes[id]? = some scope) (same : scope.Agrees scope') :
    scope.Like (ofReach machine other) scope' where
  enclosing := same.enclosing
  seen parent encloses := .inl (.outwards reached stored encloses)
  values name := by
    rw [← same.values name]
    cases found : scope.find? name with
    | none => exact .none
    | some value =>
      have bound : machine.heap.local? id name = some value := by
        rw [Heap.local?, stored]
        exact found
      exact .some (.refl Likeness.exact.reflexive value fun _ closes =>
        .inl (.closure reached bound closes))

theorem alike (agrees : machine.AgreesOn machine.Reaches other) :
    machine.Like (ofReach machine other) other where
  heap := {
    size := agrees.size
    callables := agrees.callables
    fresh := fun _ above => .inr above
    visible := by
      rintro id (reached | fresh)
      · have contents := agrees.contents id reached
        obtain ⟨absent, absent'⟩ | ⟨scope, scope', stored, stored', same⟩ :=
          none_or_some_of_rel contents
        · rw [absent, absent']
          exact .none
        · rw [stored, stored']
          exact .some (scope_alike reached stored same)
      · rw [Array.getElem?_eq_none fresh, Array.getElem?_eq_none (agrees.size ▸ fresh)]
        exact .none
    hidden := fun _ _ => ⟨rfl, rfl⟩ }
  globals := agrees.globals
  scope := agrees.scope
  seen := .inl .here
  depth := agrees.depth
  output := agrees.output
  clock := agrees.clock

theorem agrees {after after' : Machine} (same : after.Like (ofReach machine other) after') :
    after.AgreesOn (ofReach machine other).seen after' where
  size := same.heap.size
  callables := same.heap.callables
  contents id seen := by
    obtain ⟨absent, absent'⟩ | ⟨scope, scope', stored, stored', alike⟩ :=
      none_or_some_of_rel (same.heap.visible id seen)
    · rw [absent, absent']
      exact .none
    · rw [stored, stored']
      refine .some ⟨alike.enclosing, fun name => ?_⟩
      obtain ⟨unbound, unbound'⟩ | ⟨value, value', bound, bound', given⟩ :=
        none_or_some_of_rel (alike.values name)
      · rw [unbound, unbound']
      · rw [bound, bound', value_eq given]
  globals := same.globals
  scope := same.scope
  depth := same.depth
  output := same.output
  clock := same.clock

end View.ofReach

theorem Machine.AgreesOn.refl (part : ScopeId → Prop) (machine : Machine) :
    machine.AgreesOn part machine where
  size := rfl
  callables := rfl
  contents id _ := by
    cases machine.heap.scopes[id]? with
    | some scope => exact .some ⟨rfl, fun _ => rfl⟩
    | none => exact .none
  globals := rfl
  scope := rfl
  depth := rfl
  output := rfl
  clock := rfl

/-- A change of a scope outside a part goes unnoticed there. -/
theorem Machine.AgreesOn.modify {part : ScopeId → Prop} {id : ScopeId} (outside : ¬ part id)
    (machine : Machine) (change : Scope → Scope) :
    machine.AgreesOn part { machine with heap := machine.heap.modify id change } :=
  { Machine.AgreesOn.refl part machine with
    size := by simp [Heap.modify]
    contents := by
      intro other inside
      have apart : id ≠ other := fun equal => outside (equal ▸ inside)
      simp only [Heap.modify, Array.getElem?_modify, apart, if_false]
      exact (Machine.AgreesOn.refl part machine).contents other inside }

/-- A run that does alike on machines that are alike as far as they are seen is encapsulated. -/
theorem Run.Encapsulated.of_like {α : Type} (values : View → α → α → Prop) {run : Run α}
    (exact : ∀ machine other value value',
      values (View.ofReach machine other) value value' → value = value')
    (alike : ∀ machine other,
      run.Like (View.ofReach machine other) (values (View.ofReach machine other)) run) :
    run.Encapsulated where
  unchanged machine id present unreached := by
    obtain ⟨_, after⟩ := alike _ _ (View.ofReach.alike (.refl machine.Reaches machine))
    have hidden : ¬ (View.ofReach machine machine).seen id :=
      fun seen => seen.elim unreached (Nat.not_le.2 present)
    exact (after.heap.hidden id hidden).1
  independent machine other agrees := by
    obtain ⟨outcomes, after⟩ := alike _ _ (View.ofReach.alike agrees)
    exact ⟨View.ofReach.outcome_eq (exact machine other) outcomes, View.ofReach.agrees after⟩

/-- Expressions, statements, statement lists and programs, run from any machine and however they
end, leave every scope they cannot reach as it was; and what they do, print and leave in the scopes
they can reach does not depend on what is in the others. -/
theorem evaluation_encapsulated (fuel : Nat) :
    (∀ expression, (evaluate fuel expression).Encapsulated) ∧
    (∀ statement, (execute fuel statement).Encapsulated) ∧
    (∀ statements, (Run.sequence (execute fuel) statements).Encapsulated) ∧
    (∀ statements, (interpret fuel statements).Encapsulated) := by
  have itself := Likeness.exact.reflexive
  refine ⟨?_, ?_, ?_, ?_⟩
  · intro expression
    apply Run.Encapsulated.of_like Value.Like fun _ _ _ _ => View.ofReach.value_eq
    intro machine other
    exact (Run.Like.evaluation _ fuel).1 _ _ (itself.expr expression)
  · intro statement
    apply Run.Encapsulated.of_like Flow.Like fun _ _ _ _ => View.ofReach.flow_eq
    intro machine other
    exact (Run.Like.evaluation _ fuel).2 _ _ (itself.stmt statement)
  · intro statements
    apply Run.Encapsulated.of_like Flow.Like fun _ _ _ _ => View.ofReach.flow_eq
    intro machine other
    exact Run.Like.program fuel (itself.stmts statements)
  · intro statements
    apply Run.Encapsulated.of_like (fun _ => Eq) fun _ _ _ _ => id
    intro machine other
    exact Run.Like.interpret fuel (itself.stmts statements)

private def sign (kind : TokenKind) (lexeme : String) : Token :=
  { kind, lexeme, line := 1, span := ⟨0, 1⟩ }

private def forgetful : Stmt :=
  .expression (.call (.var (sign .identifier "count")) (sign .rightParen ")") [])

/-- A machine that has called a function with a variable of its own and kept nothing of it. -/
private def counted : Machine :=
  (interpret 9
    [.function (sign .identifier "count") []
      [.declare (sign .identifier "n") (some (.literal (.int 0)))],
      forgetful]
    (Machine.start fun _ => 0)).2

/-- The same machine with another value in the scope of the call that is over. -/
private def recounted : Machine :=
  { counted with heap := counted.heap.modify 1 (·.update "n" (.string "lost")) }

private theorem reached_of_counted {id : ScopeId} (reached : counted.Reaches id) : id = 0 := by
  induction reached with
  | here => decide +kernel
  | outwards _ stored encloses ih =>
    subst ih
    have outermost : counted.heap.scopes[0]?.bind Scope.enclosing = none := by decide +kernel
    simp [stored, encloses] at outermost
  | @closure _ closure name value _ bound closes ih =>
    subst ih
    have closures : ((counted.heap.scopes[0]?.map Scope.bindings).getD []).filterMap
        (fun binding => binding.2.closure?) = [0] := by decide +kernel
    obtain ⟨scope, stored, found⟩ := Option.bind_eq_some_iff.1 bound
    obtain ⟨front, back, split, _⟩ := List.lookup_eq_some_iff.1 found
    have member : closure ∈ [0] := by
      rw [← closures, List.mem_filterMap]
      exact ⟨(name, value), by simp [stored, split], closes⟩
    exact List.mem_singleton.1 member

/-- A second call leaves the scope of the first as it is, and is none the wiser whatever stands
there. -/
theorem counted_encapsulated :
    ¬ counted.Reaches 1 ∧
      (interpret 9 [forgetful] counted).2.heap.scopes[1]? = counted.heap.scopes[1]? ∧
      counted.AgreesOn counted.Reaches recounted ∧
      (counted.heap.local? 1 "n").map Value.text = some "0" ∧
      (recounted.heap.local? 1 "n").map Value.text = some "lost" ∧
      (interpret 9 [forgetful] counted).1 = (interpret 9 [forgetful] recounted).1 := by
  have apart : ¬ counted.Reaches 1 := fun reached => absurd (reached_of_counted reached) (by decide)
  have agrees : counted.AgreesOn counted.Reaches recounted := .modify apart counted _
  obtain ⟨_, _, _, programs⟩ := evaluation_encapsulated 9
  exact ⟨apart, (programs [forgetful]).unchanged counted 1 (by decide +kernel) apart, agrees,
    by decide +kernel, by decide +kernel,
    ((programs [forgetful]).independent counted recounted agrees).1⟩

end TinyScript
