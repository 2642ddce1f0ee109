import Mathlib.Data.List.Nodup
import Mathlib.Data.List.Perm.Subperm
import Mathlib.Logic.Relation
import Mathlib.Order.WellFounded
import TinyScript.Proofs.Grounded

/-! Names mean their nearest bindings. Scopes may enclose each other in any way as long as going
outwards comes to an end; they need not be made in order. Then reading, assigning and declaring a name
are about one binding each, and what any other scope sees changes only where that binding is the one
in sight. -/
namespace TinyScript

namespace Heap

/-- The scope around a scope, if there is one. -/
def outer? (heap : Heap) (scope : ScopeId) : Option ScopeId := heap.scopes[scope]?.bind (·.enclosing)

theorem outer?_eq_some {heap : Heap} {outer inner : ScopeId} :
    heap.outer? inner = some outer ↔ heap.Encloses outer inner := by
  simp [outer?, Encloses, Option.bind_eq_some_iff]

/-- Scopes stand inside scopes that exist, and going outwards from one comes to an end. -/
structure Forest (heap : Heap) : Prop where
  present : ∀ {outer inner : ScopeId}, heap.Encloses outer inner → outer < heap.scopes.size
  wellFounded : WellFounded heap.Encloses

namespace Forest

theorem of_rank {heap : Heap}
    (present : ∀ {outer inner : ScopeId}, heap.Encloses outer inner → outer < heap.scopes.size)
    (rank : ScopeId → Nat)
    (lower : ∀ {outer inner : ScopeId}, heap.Encloses outer inner → rank outer < rank inner) :
    heap.Forest where
  present := present
  wellFounded := Subrelation.wf lower (measure rank).wf

variable {heap : Heap} (forest : heap.Forest)

/-- The first scope that binds the name on the way outwards. -/
noncomputable def nearest? (name : String) (start : ScopeId) : Option ScopeId :=
  forest.wellFounded.fix
    (fun scope further =>
      if (heap.local? scope name).isSome then some scope
      else
        match link : heap.outer? scope with
        | some outer => further outer (outer?_eq_some.1 link)
        | none => none)
    start

/-- What a scope sees of a name: the value in the first scope that binds it on the way outwards. -/
noncomputable def view (start : ScopeId) (name : String) : Option Value :=
  (forest.nearest? name start).bind fun binder => heap.local? binder name

theorem nearest?_eq (name : String) (start : ScopeId) :
    forest.nearest? name start =
      if (heap.local? start name).isSome then some start
      else (heap.outer? start).bind (forest.nearest? name) := by
  rw [nearest?, WellFounded.fix_eq]
  split
  · rfl
  · split
    · next outer link =>
      have onwards : (heap.outer? start).bind (forest.nearest? name) =
          forest.nearest? name outer := by
        rw [link, Option.bind_some]
      rw [onwards]
      rfl
    · next link => simp only [link, Option.bind_none]

theorem nearest?_of_bound {name : String} {start : ScopeId}
    (bound : (heap.local? start name).isSome) : forest.nearest? name start = some start := by
  rw [nearest?_eq, if_pos bound]

theorem nearest?_of_unbound {name : String} {start : ScopeId}
    (unbound : heap.local? start name = none) :
    forest.nearest? name start = (heap.outer? start).bind (forest.nearest? name) := by
  rw [nearest?_eq, unbound]
  rfl

/-- What is found binds the name. -/
theorem bound_of_nearest? {name : String} {start binder : ScopeId}
    (found : forest.nearest? name start = some binder) : (heap.local? binder name).isSome := by
  induction start using forest.wellFounded.induction with
  | _ start ih =>
    cases here : heap.local? start name with
    | some value =>
      rw [forest.nearest?_of_bound (by simp [here])] at found
      obtain rfl := Option.some.inj found
      simp [here]
    | none =>
      rw [forest.nearest?_of_unbound here] at found
      obtain ⟨outer, link, further⟩ := Option.bind_eq_some_iff.1 found
      exact ih outer (outer?_eq_some.1 link) further

theorem view_eq_none {name : String} {start : ScopeId} :
    forest.view start name = none ↔ forest.nearest? name start = none := by
  unfold view
  cases found : forest.nearest? name start with
  | none => simp
  | some binder =>
    have bound := forest.bound_of_nearest? found
    simpa using Option.isSome_iff_ne_none.1 bound

end Forest

/-- The way outwards from a scope, up to one that nothing stands around. -/
inductive Outwards (heap : Heap) : ScopeId → List ScopeId → Prop where
  | outermost {scope : ScopeId} (present : scope < heap.scopes.size)
      (alone : heap.outer? scope = none) : Outwards heap scope [scope]
  | inside {scope outer : ScopeId} {path : List ScopeId} (encloses : heap.Encloses outer scope)
      (further : Outwards heap outer path) : Outwards heap scope (scope :: path)

namespace Outwards

variable {heap : Heap} {start : ScopeId} {path : List ScopeId} (outwards : heap.Outwards start path)
include outwards

theorem chainFrom_eq {count : Nat} (enough : path.length ≤ count) :
    heap.chainFrom count start = path := by
  induction outwards generalizing count with
  | outermost present alone =>
    obtain ⟨count, rfl⟩ := Nat.exists_eq_succ_of_ne_zero (Nat.ne_zero_of_lt enough)
    have stored := Array.getElem?_eq_getElem present
    rw [outer?, stored, Option.bind_some] at alone
    simp only [chainFrom, stored, alone]
  | inside encloses _ ih =>
    obtain ⟨count, rfl⟩ := Nat.exists_eq_succ_of_ne_zero (Nat.ne_zero_of_lt enough)
    obtain ⟨scope, stored, link⟩ := encloses
    simp only [chainFrom, stored, link, ih (Nat.le_of_succ_le_succ enough)]

theorem lt_of_mem : ∀ scope ∈ path, scope < heap.scopes.size := by
  induction outwards with
  | outermost present _ => simpa using present
  | inside encloses _ ih =>
    obtain ⟨_, stored, _⟩ := encloses
    exact List.forall_mem_cons.2 ⟨(Array.getElem?_eq_some_iff.1 stored).1, ih⟩

theorem around_of_mem : ∀ scope ∈ path, Relation.ReflTransGen heap.Encloses scope start := by
  induction outwards with
  | outermost _ _ => simpa using Relation.ReflTransGen.refl
  | inside encloses _ ih =>
    exact List.forall_mem_cons.2 ⟨.refl, fun scope member => (ih scope member).tail encloses⟩

theorem find?_eq (forest : heap.Forest) (name : String) :
    (path.find? fun scope => (heap.local? scope name).isSome) = forest.nearest? name start := by
  induction outwards with
  | outermost _ alone =>
    rw [forest.nearest?_eq, alone, List.find?_cons]
    cases (heap.local? _ name).isSome <;> rfl
  | inside encloses _ ih =>
    rw [forest.nearest?_eq, outer?_eq_some.2 encloses, List.find?_cons, ih]
    cases (heap.local? _ name).isSome <;> rfl

end Outwards

namespace Forest

variable {heap : Heap} (forest : heap.Forest)
include forest

theorem exists_outwards {start : ScopeId} (present : start < heap.scopes.size) :
    ∃ path, heap.Outwards start path := by
  induction start using forest.wellFounded.induction with
  | _ start ih =>
    cases link : heap.outer? start with
    | none => exact ⟨[start], .outermost present link⟩
    | some outer =>
      have encloses := outer?_eq_some.1 link
      obtain ⟨path, further⟩ := ih outer encloses (forest.present encloses)
      exact ⟨start :: path, .inside encloses further⟩

/-- Coming back to a scope on the way outwards would lead around for ever. -/
theorem nodup {start : ScopeId} {path : List ScopeId} (outwards : heap.Outwards start path) :
    path.Nodup := by
  induction outwards with
  | outermost => exact List.nodup_singleton _
  | @inside scope outer path encloses further ih =>
    refine List.nodup_cons.2 ⟨fun member => ?_, ih⟩
    have around := Relation.TransGen.tail' (further.around_of_mem scope member) encloses
    exact forest.wellFounded.transGen.irrefl.irrefl scope around

/-- No way outwards is longer than there are scopes, so chains break off nowhere. -/
theorem length_le {start : ScopeId} {path : List ScopeId} (outwards : heap.Outwards start path) :
    path.length ≤ heap.scopes.size := by
  have within : path ⊆ List.range heap.scopes.size := fun scope member =>
    List.mem_range.2 (outwards.lt_of_mem scope member)
  simpa using ((forest.nodup outwards).subperm within).length_le

theorem binder?_eq (name : String) {start : ScopeId} (present : start < heap.scopes.size) :
    heap.binder? start name = forest.nearest? name start := by
  obtain ⟨path, outwards⟩ := forest.exists_outwards present
  rw [binder?, chain, outwards.chainFrom_eq (forest.length_le outwards), outwards.find?_eq forest]

theorem find?_eq (name : String) {start : ScopeId} (present : start < heap.scopes.size) :
    heap.find? start name = forest.view start name := by
  rw [find?, forest.binder?_eq name present, view]

end Forest

/-- All that is different in the later heap is the value of one name in one scope. -/
structure DiffersAt (before : Heap) (scope : ScopeId) (name : String) (value : Value) (after : Heap) :
    Prop where
  entry : ∀ id other, after.local? id other =
    if id = scope ∧ other = name then some value else before.local? id other
  outer : ∀ id, after.outer? id = before.outer? id
  size : after.scopes.size = before.scopes.size

/-- Going outwards from the scope, one comes to the target before any other scope that binds the
name. -/
inductive ComesTo (heap : Heap) (name : String) (target : ScopeId) : ScopeId → Prop where
  | here : ComesTo heap name target target
  | outwards {scope outer : ScopeId} (unbound : heap.local? scope name = none)
      (encloses : heap.Encloses outer scope) (further : ComesTo heap name target outer) :
      ComesTo heap name target scope

theorem outer?_modify (heap : Heap) (scope : ScopeId) {change : Scope → Scope}
    (stays : ∀ scope, (change scope).enclosing = scope.enclosing) (id : ScopeId) :
    (heap.modify scope change).outer? id = heap.outer? id := by
  rw [outer?, modify, Array.getElem?_modify, outer?]
  split
  · cases heap.scopes[id]? with
    | none => rfl
    | some stored => exact stays stored
  · rfl

theorem differsAt_update {heap : Heap} {scope : ScopeId} {name : String} (value : Value)
    (bound : (heap.local? scope name).isSome) :
    heap.DiffersAt scope name value (heap.modify scope (·.update name value)) where
  entry id other := by
    obtain ⟨old, stored⟩ := Option.isSome_iff_exists.1 bound
    rw [local?, modify, Array.getElem?_modify]
    by_cases here : scope = id
    · subst here
      obtain ⟨found, present, binds⟩ := Option.bind_eq_some_iff.1 stored
      rw [if_pos rfl, local?, present, Option.map_some, Option.bind_some, Option.bind_some,
        Scope.find?_update]
      by_cases same : other = name
      · subst same
        simp [binds]
      · simp [same]
    · simp [here, Ne.symm here, local?]
  outer := outer?_modify heap scope fun _ => rfl
  size := by simp [modify]

theorem differsAt_insert {heap : Heap} {scope : ScopeId} (name : String) (value : Value)
    (present : scope < heap.scopes.size) :
    heap.DiffersAt scope name value (heap.modify scope (·.insert name value)) where
  entry id other := by
    rw [local?, modify, Array.getElem?_modify]
    by_cases here : scope = id
    · subst here
      simp [local?, present, Scope.find?_insert]
    · simp [here, Ne.symm here, local?]
  outer := outer?_modify heap scope fun _ => rfl
  size := by simp [modify]

namespace DiffersAt

variable {heap after : Heap} {scope : ScopeId} {name : String} {value : Value}
variable (differs : heap.DiffersAt scope name value after)
include differs

theorem forest (forest : heap.Forest) : after.Forest := by
  have same : after.Encloses = heap.Encloses := by
    funext outer inner
    rw [← outer?_eq_some, ← outer?_eq_some, differs.outer]
  exact ⟨fun encloses => by rw [differs.size]; exact forest.present (same ▸ encloses),
    same ▸ forest.wellFounded⟩

theorem local?_at : after.local? scope name = some value := by simp [differs.entry]

theorem local?_elsewhere {id : ScopeId} {other : String} (elsewhere : ¬(id = scope ∧ other = name)) :
    after.local? id other = heap.local? id other := by
  rw [differs.entry, if_neg elsewhere]

/-- If the scope has bound the name before, the same names are bound as before. -/
theorem isSome_local? (bound : (heap.local? scope name).isSome) (id : ScopeId) (other : String) :
    (after.local? id other).isSome = (heap.local? id other).isSome := by
  by_cases here : id = scope ∧ other = name
  · rw [here.1, here.2, differs.local?_at, bound, Option.isSome_some]
  · rw [differs.local?_elsewhere here]

variable (before : heap.Forest) (later : after.Forest)

/-- Another name is found where it was. -/
theorem nearest?_other {other : String} (elsewhere : other ≠ name) (start : ScopeId) :
    later.nearest? other start = before.nearest? other start := by
  induction start using before.wellFounded.induction with
  | _ start ih =>
    rw [later.nearest?_eq, before.nearest?_eq, differs.outer,
      differs.local?_elsewhere fun here => elsewhere here.2]
    cases link : heap.outer? start with
    | none => rfl
    | some outer => rw [Option.bind_some, Option.bind_some, ih outer (outer?_eq_some.1 link)]

/-- If the scope has bound the name before, the name is found where it was. -/
theorem nearest?_of_bound (bound : (heap.local? scope name).isSome) (start : ScopeId) :
    later.nearest? name start = before.nearest? name start := by
  induction start using before.wellFounded.induction with
  | _ start ih =>
    rw [later.nearest?_eq, before.nearest?_eq, differs.outer, differs.isSome_local? bound]
    cases link : heap.outer? start with
    | none => rfl
    | some outer => rw [Option.bind_some, Option.bind_some, ih outer (outer?_eq_some.1 link)]

/-- A binding that is new is found from where one comes to it first. -/
theorem nearest?_of_comesTo {start : ScopeId} (reaches : heap.ComesTo name scope start) :
    later.nearest? name start = some scope := by
  induction reaches with
  | here => exact later.nearest?_of_bound (by simp [differs.local?_at])
  | @outwards start outer unbound encloses _ ih =>
    by_cases here : start = scope
    · rw [here]
      exact later.nearest?_of_bound (by simp [differs.local?_at])
    · have still := differs.local?_elsewhere fun both : start = scope ∧ name = name => here both.1
      rw [later.nearest?_of_unbound (still.trans unbound), differs.outer, 
        outer?_eq_some.2 encloses, Option.bind_some, ih]

/-- From everywhere else the name is found where it was. -/
theorem nearest?_of_not_comesTo {start : ScopeId} (beside : ¬ heap.ComesTo name scope start) :
    later.nearest? name start = before.nearest? name start ∧
      before.nearest? name start ≠ some scope := by
  induction start using before.wellFounded.induction with
  | _ start ih =>
    have elsewhere : start ≠ scope := by
      rintro rfl
      exact beside .here
    have same := differs.local?_elsewhere fun both : start = scope ∧ name = name => elsewhere both.1
    cases here : heap.local? start name with
    | some found =>
      rw [later.nearest?_of_bound (by simp [same, here]), before.nearest?_of_bound (by simp [here])]
      exact ⟨rfl, fun both => elsewhere (Option.some.inj both)⟩
    | none =>
      rw [later.nearest?_of_unbound (same.trans here), before.nearest?_of_unbound here, differs.outer]
      cases link : heap.outer? start with
      | none => simp
      | some outer =>
        have encloses := outer?_eq_some.1 link
        exact ih outer encloses fun further => beside (.outwards here encloses further)

theorem view_other {other : String} (elsewhere : other ≠ name) (start : ScopeId) :
    later.view start other = before.view start other := by
  unfold Forest.view
  rw [differs.nearest?_other before later elsewhere]
  congr 1
  funext binder
  exact differs.local?_elsewhere fun here => elsewhere here.2

/-- Where the search for the name ends where it did, its value is another exactly at the scope. -/
theorem view_of_nearest? {start : ScopeId}
    (found : later.nearest? name start = before.nearest? name start) :
    later.view start name =
      if before.nearest? name start = some scope then some value else before.view start name := by
  unfold Forest.view
  rw [found]
  cases before.nearest? name start with
  | none => rfl
  | some binder =>
    by_cases here : binder = scope
    · simp [here, differs.local?_at]
    · simp [here, differs.local?_elsewhere]

/-- A binding that is given another value is seen exactly where it was the one in sight. -/
theorem view_of_bound (bound : (heap.local? scope name).isSome) (start : ScopeId) (other : String) :
    later.view start other =
      if other = name ∧ before.nearest? name start = some scope then some value
      else before.view start other := by
  by_cases same : other = name
  · subst same
    simpa using differs.view_of_nearest? before later
      (differs.nearest?_of_bound before later bound start)
  · rw [if_neg fun both => same both.1]
    exact differs.view_other before later same start

theorem view_of_comesTo {start : ScopeId} (reaches : heap.ComesTo name scope start) :
    later.view start name = some value := by
  rw [Forest.view, differs.nearest?_of_comesTo later reaches, Option.bind_some, differs.local?_at]

theorem view_of_not_comesTo {start : ScopeId} {other : String}
    (beside : ¬(other = name ∧ heap.ComesTo name scope start)) :
    later.view start other = before.view start other := by
  by_cases same : other = name
  · subst same
    obtain ⟨found, elsewhere⟩ :=
      differs.nearest?_of_not_comesTo before later fun reaches => beside ⟨rfl, reaches⟩
    rw [differs.view_of_nearest? before later found, if_neg elsewhere]
  · exact differs.view_other before later same start

end DiffersAt

end Heap

/-- Running programs keep their scopes in a forest, each inside an older one, and are in one of
them. -/
theorem Machine.Reachable.forest {readings : Nat → Int64} {machine : Machine}
    (reachable : machine.Reachable readings) :
    machine.heap.Forest ∧ machine.scope < machine.heap.scopes.size := by
  have grounded := reachable.grounded
  refine ⟨.of_rank ?_ id grounded.heap.lt_of_encloses, grounded.scope⟩
  intro outer inner encloses
  have older := grounded.heap.lt_of_encloses encloses
  obtain ⟨_, stored, _⟩ := encloses
  exact Nat.lt_trans older (Array.getElem?_eq_some_iff.1 stored).1

section Operations

variable {machine : Machine} (forest : machine.heap.Forest)
variable (present : machine.scope < machine.heap.scopes.size) (name : Token) (value : Value)
include present

theorem lookup_eq_view :
    Run.lookup name machine =
      (match forest.view machine.scope name.lexeme with
        | some found => .done found
        | none => .failed (Heap.undefinedName name), machine) := by
  rw [← forest.find?_eq name.lexeme present, Run.lookup, Heap.get]
  cases machine.heap.find? machine.scope name.lexeme <;> rfl

theorem assign_of_nowhere (nowhere : forest.nearest? name.lexeme machine.scope = none) :
    Run.assign name value machine = (.failed (Heap.undefinedName name), machine) := by
  rw [← forest.binder?_eq name.lexeme present] at nowhere
  simp only [Run.assign, Run.onHeap, Heap.assign, nowhere]

theorem assign_of_nearest? {binder : ScopeId}
    (found : forest.nearest? name.lexeme machine.scope = some binder) :
    Run.assign name value machine = (.done (),
      { machine with heap := machine.heap.modify binder (·.update name.lexeme value) }) := by
  rw [← forest.binder?_eq name.lexeme present] at found
  simp only [Run.assign, Run.onHeap, Heap.assign, found]

end Operations

/-- Names mean their nearest bindings, on scopes that enclose each other in any way that comes to an
end. Reading a name gives what the scope sees of it. Assigning fails where nothing is seen; otherwise
one entry of the nearest scope that binds the name is changed, no name is added, and that is noticed
exactly where this binding is the one in sight. Declaring fails if the scope itself binds the name;
otherwise the new binding is seen from where one comes to it before any other, and nothing else looks
different. What fails leaves all as it was. -/
theorem names_mean_nearest_bindings (machine : Machine) (forest : machine.heap.Forest)
    (present : machine.scope < machine.heap.scopes.size) (name : Token) (value : Value) :
    Run.lookup name machine =
      (match forest.view machine.scope name.lexeme with
        | some found => .done found
        | none => .failed (Heap.undefinedName name), machine) ∧
    ((forest.view machine.scope name.lexeme = none ∧
        Run.assign name value machine = (.failed (Heap.undefinedName name), machine)) ∨
      (forest.view machine.scope name.lexeme ≠ none ∧
        ∃ (binder : ScopeId) (after : Heap) (later : after.Forest),
          forest.nearest? name.lexeme machine.scope = some binder ∧
          Run.assign name value machine = (.done (), { machine with heap := after }) ∧
          machine.heap.DiffersAt binder name.lexeme value after ∧
          (∀ scope other,
            (after.local? scope other).isSome = (machine.heap.local? scope other).isSome) ∧
          ∀ start other, later.view start other =
            if other = name.lexeme ∧ forest.nearest? name.lexeme start = some binder then some value
            else forest.view start other)) ∧
    ((machine.heap.local? machine.scope name.lexeme ≠ none ∧
        Run.define name value machine = (.failed ⟨.alreadyInUse name.lexeme, name⟩, machine)) ∨
      (machine.heap.local? machine.scope name.lexeme = none ∧
        ∃ (after : Heap) (later : after.Forest),
          Run.define name value machine = (.done (), { machine with heap := after }) ∧
          machine.heap.DiffersAt machine.scope name.lexeme value after ∧
          ∀ start other,
            (other = name.lexeme ∧ machine.heap.ComesTo name.lexeme machine.scope start →
              later.view start other = some value) ∧
            (¬(other = name.lexeme ∧ machine.heap.ComesTo name.lexeme machine.scope start) →
              later.view start other = forest.view start other))) := by
  refine ⟨lookup_eq_view forest present name, ?_, ?_⟩
  · cases found : forest.nearest? name.lexeme machine.scope with
    | none =>
      exact .inl ⟨forest.view_eq_none.2 found, assign_of_nowhere forest present name value found⟩
    | some binder =>
      have bound := forest.bound_of_nearest? found
      have differs := Heap.differsAt_update value bound
      have later := differs.forest forest
      refine .inr ⟨fun unseen => ?_, binder, _, later, rfl,
        assign_of_nearest? forest present name value found, differs, differs.isSome_local? bound,
        differs.view_of_bound forest later bound⟩
      rw [forest.view_eq_none, found] at unseen
      cases unseen
  · cases own : machine.heap.local? machine.scope name.lexeme with
    | some old =>
      refine .inl ⟨by simp, ?_⟩
      simp only [Run.define, Run.onHeap, Heap.define, own]
    | none =>
      have differs := Heap.differsAt_insert name.lexeme value present
      have later := differs.forest forest
      refine .inr ⟨rfl, _, later, ?_, differs, fun start other => ⟨?_, ?_⟩⟩
      · simp only [Run.define, Run.onHeap, Heap.define, own]
      · rintro ⟨rfl, reaches⟩
        exact differs.view_of_comesTo later reaches
      · exact differs.view_of_not_comesTo forest later

private def named (lexeme : String) : Token :=
  { kind := .identifier, lexeme, line := 1, span := ⟨0, 1⟩ }

/-- From the third scope the way leads through the second and the fourth to the first. -/
private def windingHeap : Heap where
  scopes := #[{ bindings := [("x", .int 1), ("y", .nil)] }, { enclosing := some 3 },
    { enclosing := some 1 }, { bindings := [("x", .int 5)], enclosing := some 0 }]

private def winding : Machine :=
  { heap := windingHeap, globals := 0, scope := 2, clock := { readings := fun _ => 0 } }

/-- How many scopes stand around each of them. -/
private def windingRank : ScopeId → Nat
  | 0 => 0
  | 1 => 2
  | 2 => 3
  | _ => 1

private theorem winding_forest : winding.heap.Forest := by
  have links {outer inner : Nat} (encloses : winding.heap.Encloses outer inner) :
      outer < 4 ∧ windingRank outer < windingRank inner := by
    have link := Heap.outer?_eq_some.2 encloses
    obtain ⟨_, stored, _⟩ := encloses
    have small : inner < 4 := (Array.getElem?_eq_some_iff.1 stored).1
    obtain rfl | rfl | rfl | rfl : inner = 0 ∨ inner = 1 ∨ inner = 2 ∨ inner = 3 := by omega
    · cases link
    · obtain rfl : 3 = outer := Option.some.inj link
      decide
    · obtain rfl : 1 = outer := Option.some.inj link
      decide
    · obtain rfl : 0 = outer := Option.some.inj link
      decide
  exact .of_rank (fun encloses => (links encloses).1) windingRank fun encloses => (links encloses).2

/-- Scopes that were not made from the outside in. A name that is bound twice is assigned from inside
both: the inner binding changes, and the outermost scope goes on seeing its own. -/
theorem winding_nearest_bindings :
    ∃ forest : winding.heap.Forest, winding.scope < winding.heap.scopes.size ∧
      Run.lookup (named "x") winding = (.done (.int 5), winding) ∧
      ∃ (after : Heap) (later : after.Forest),
        Run.assign (named "x") (.int 7) winding = (.done (), { winding with heap := after }) ∧
        winding.heap.DiffersAt 3 "x" (.int 7) after ∧
        later.view 1 "x" = some (.int 7) ∧ later.view 0 "x" = forest.view 0 "x" := by
  have present : winding.scope < winding.heap.scopes.size := by decide
  have nearest (start : ScopeId) (inside : start < winding.heap.scopes.size) :
      winding_forest.nearest? "x" start = winding.heap.binder? start "x" :=
    (winding_forest.binder?_eq "x" inside).symm
  have inner : winding_forest.nearest? "x" 2 = some 3 := nearest 2 (by decide)
  have middle : winding_forest.nearest? "x" 1 = some 3 := nearest 1 (by decide)
  have outermost : winding_forest.nearest? "x" 0 = some 0 := nearest 0 (by decide)
  obtain ⟨reading, assigning, -⟩ :=
    names_mean_nearest_bindings winding winding_forest present (named "x") (.int 7)
  have seen : winding_forest.view winding.scope (named "x").lexeme = some (.int 5) := by
    change (winding_forest.nearest? "x" 2).bind _ = _
    rw [inner]
    rfl
  rw [seen] at reading assigning
  obtain ⟨unseen, _⟩ | ⟨_, binder, after, later, found, ran, differs, _, views⟩ := assigning
  · cases unseen
  · obtain rfl : 3 = binder := Option.some.inj (inner.symm.trans found)
    refine ⟨winding_forest, present, reading, after, later, ran, differs, ?_, ?_⟩
    · rw [views, if_pos ⟨rfl, middle⟩]
    · rw [views, if_neg]
      rintro ⟨_, other⟩
      exact absurd (outermost.symm.trans other) (by decide)

end TinyScript
