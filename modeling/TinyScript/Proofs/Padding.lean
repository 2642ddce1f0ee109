import TinyScript.Proofs.Grounded

/-! Heaps that differ by padding. One heap may have scopes that the other lacks, as long as nothing is
bound in them: a name looked for from inside goes right through to what the padding stands in, so no
program can tell. Scopes are numbered in order of creation, so padding shifts the numbers of others,
and functions close over the scopes with the shifted numbers. -/
namespace TinyScript

/-- How the scopes of a padded heap stand for those of a plain one. Each scope of the padded heap
stands for one of the plain heap, and each of these has one scope of its own; the others are
padding. -/
structure Padding where
  stands : ScopeId → ScopeId
  own : ScopeId → ScopeId

namespace Padding

/-- The scope is no padding. -/
def IsOwn (padding : Padding) (id : ScopeId) : Prop := padding.own (padding.stands id) = id

instance (padding : Padding) (id : ScopeId) : Decidable (padding.IsOwn id) :=
  inferInstanceAs (Decidable (_ = _))

/-- Every scope stands for itself. -/
def none : Padding := ⟨id, id⟩

/-- A new scope in both heaps. -/
def pair (padding : Padding) (fresh other : ScopeId) : Padding where
  stands id := if id = fresh then other else padding.stands id
  own id := if id = other then fresh else padding.own id

/-- A new scope in the padded heap, which stands for what `inside` stands for. -/
def pad (padding : Padding) (fresh inside : ScopeId) : Padding where
  stands id := if id = fresh then padding.stands inside else padding.stands id
  own := padding.own

end Padding

/-- The value with other numbers for the scopes that functions close over. -/
def Value.renumber (stands : ScopeId → ScopeId) : Value → Value
  | .callable ⟨identity, .declared function⟩ =>
    .callable ⟨identity, .declared { function with closure := stands function.closure }⟩
  | value => value

/-- The scope with other numbers, inside and outside. -/
def Scope.renumber (stands : ScopeId → ScopeId) (scope : Scope) : Scope where
  bindings := scope.bindings.map fun binding => (binding.1, binding.2.renumber stands)
  enclosing := scope.enclosing.map stands

namespace Value

variable {stands other : ScopeId → ScopeId}

/-- Only functions of the program have numbers in them. -/
theorem renumber_cases (stands : ScopeId → ScopeId) (value : Value) :
    value.renumber stands = value ∨
      ∃ identity function, value = .callable ⟨identity, .declared function⟩ := by
  match value with
  | .callable ⟨identity, .declared function⟩ => exact .inr ⟨identity, function, rfl⟩
  | .callable ⟨identity, .builtIn builtin⟩ => exact .inl rfl
  | .nil | .bool _ | .int _ | .string _ | .bytes _ => exact .inl rfl

theorem renumber_of_isPlain {value : Value} (plain : value.IsPlain) : value.renumber stands = value := by
  obtain same | ⟨identity, function, rfl⟩ := renumber_cases stands value
  · exact same
  · cases plain

theorem renumber_congr {value : Value}
    (same : ∀ closure, value.closure? = some closure → stands closure = other closure) :
    value.renumber stands = value.renumber other := by
  match value, same with
  | .callable ⟨identity, .declared function⟩, same => simp [renumber, same function.closure rfl]
  | .callable ⟨identity, .builtIn builtin⟩, _ => rfl
  | .nil, _ | .bool _, _ | .int _, _ | .string _, _ | .bytes _, _ => rfl

theorem renumber_id (value : Value) : value.renumber id = value := by
  obtain same | ⟨identity, function, rfl⟩ := renumber_cases id value
  · exact same
  · rfl

theorem closure?_renumber (value : Value) :
    (value.renumber stands).closure? = value.closure?.map stands := by
  match value with
  | .callable ⟨identity, .declared function⟩ => rfl
  | .callable ⟨identity, .builtIn builtin⟩ => rfl
  | .nil | .bool _ | .int _ | .string _ | .bytes _ => rfl

theorem isTruthy_renumber (value : Value) : (value.renumber stands).isTruthy = value.isTruthy := by
  obtain same | ⟨identity, function, rfl⟩ := renumber_cases stands value
  · rw [same]
  · rfl

theorem text_renumber (value : Value) : (value.renumber stands).text = value.text := by
  obtain same | ⟨identity, function, rfl⟩ := renumber_cases stands value
  · rw [same]
  · rfl

theorem hexText?_renumber (value : Value) : (value.renumber stands).hexText? = value.hexText? := by
  obtain same | ⟨identity, function, rfl⟩ := renumber_cases stands value
  · rw [same]
  · rfl

theorem applySign_renumber (operator : Token) (right : Value) :
    applySign operator (right.renumber stands) = applySign operator right := by
  obtain same | ⟨identity, function, rfl⟩ := renumber_cases stands right
  · rw [same]
  · rfl

theorem settles_renumber (operator : Token) (left : Value) :
    settles operator (left.renumber stands) = settles operator left := by
  rw [settles, settles, isTruthy_renumber]

theorem same_renumber (left right : Value) :
    (left.renumber stands).same (right.renumber stands) = left.same right := by
  obtain sameLeft | ⟨_, _, rfl⟩ := renumber_cases stands left
  · obtain sameRight | ⟨_, _, rfl⟩ := renumber_cases stands right
    · rw [sameLeft, sameRight]
    · rw [sameLeft]
      cases left <;> rfl
  · obtain sameRight | ⟨_, _, rfl⟩ := renumber_cases stands right
    · rw [sameRight]
      cases right <;> rfl
    · rfl

theorem applyOperator_renumber (operator : Token) (left right : Value) :
    applyOperator operator (left.renumber stands) (right.renumber stands) =
      applyOperator operator left right := by
  unfold applyOperator
  rw [same_renumber]
  obtain sameLeft | ⟨_, _, rfl⟩ := renumber_cases stands left
  · obtain sameRight | ⟨_, _, rfl⟩ := renumber_cases stands right
    · rw [sameLeft, sameRight]
    · rw [sameLeft]
      cases left <;> rfl
  · rfl

end Value

namespace Scope

variable {stands other : ScopeId → ScopeId}

theorem find?_renumber (scope : Scope) (name : String) :
    (scope.renumber stands).find? name = (scope.find? name).map (Value.renumber stands) := by
  obtain ⟨bindings, enclosing⟩ := scope
  simp only [find?, renumber]
  induction bindings with
  | nil => rfl
  | cons binding others ih =>
    rw [List.map_cons, List.lookup_cons, List.lookup_cons, ih]
    cases name == binding.1 <;> rfl

theorem insert_renumber (scope : Scope) (name : String) (value : Value) :
    (scope.insert name value).renumber stands =
      (scope.renumber stands).insert name (value.renumber stands) := rfl

theorem update_renumber (scope : Scope) (name : String) (value : Value) :
    (scope.update name value).renumber stands =
      (scope.renumber stands).update name (value.renumber stands) := by
  simp only [update, renumber, List.map_map]
  congr 1
  apply List.map_congr_left
  intro binding _
  by_cases same : binding.1 = name <;> simp [same]

theorem renumber_id (scope : Scope) : scope.renumber id = scope := by
  obtain ⟨bindings, enclosing⟩ := scope
  simp [renumber, Value.renumber_id]

theorem renumber_congr {scope : Scope}
    (bound : ∀ binding ∈ scope.bindings,
      binding.2.renumber stands = binding.2.renumber other)
    (around : ∀ parent, scope.enclosing = some parent → stands parent = other parent) :
    scope.renumber stands = scope.renumber other := by
  have bindings : scope.bindings.map (fun binding => (binding.1, binding.2.renumber stands)) =
      scope.bindings.map fun binding => (binding.1, binding.2.renumber other) := by
    apply List.map_congr_left
    intro binding member
    rw [bound binding member]
  have enclosing : scope.enclosing.map stands = scope.enclosing.map other := by
    cases outer : scope.enclosing with
    | none => rfl
    | some parent => exact congrArg some (around parent outer)
  rw [renumber, renumber, bindings, enclosing]

end Scope

namespace Heap

/-- The one scope around a scope is the one it was made in. -/
theorem Encloses.unique {heap : Heap} {outer other inner : ScopeId}
    (first : heap.Encloses outer inner) (second : heap.Encloses other inner) : outer = other := by
  obtain ⟨scope, stored, inside⟩ := first
  obtain ⟨_, also, within⟩ := second
  obtain rfl := Option.some.inj (stored.symm.trans also)
  exact Option.some.inj (inside.symm.trans within)

/-- A search has one result. -/
theorem Search.unique {heap : Heap} {name : String} {start : ScopeId} {visited others : List ScopeId}
    {found other : Option ScopeId} (first : heap.Search name start visited found)
    (second : heap.Search name start others other) : found = other := by
  induction first generalizing others with
  | here bound =>
    cases second with
    | here _ => rfl
    | outwards unbound _ _ => simp [unbound] at bound
    | nowhere unbound _ => simp [unbound] at bound
  | outwards unbound encloses _ ih =>
    cases second with
    | here bound => simp [unbound] at bound
    | outwards _ also further =>
      obtain rfl := encloses.unique also
      exact ih further
    | nowhere _ outermost => exact absurd encloses (outermost _)
  | nowhere unbound outermost =>
    cases second with
    | here bound => simp [unbound] at bound
    | outwards _ encloses _ => exact absurd encloses (outermost _)
    | nowhere _ _ => rfl

/-- Numbers that only differ above what exists are the same for what is stored. -/
theorem Grounded.renumber_eq {globals : ScopeId} {heap : Heap} (grounded : heap.Grounded globals)
    {stands other : ScopeId → ScopeId} (agrees : ∀ id < heap.scopes.size, stands id = other id)
    (id : ScopeId) :
    heap.scopes[id]?.map (Scope.renumber stands) = heap.scopes[id]?.map (Scope.renumber other) := by
  cases stored : heap.scopes[id]? with
  | none => rfl
  | some scope =>
    refine congrArg some (Scope.renumber_congr ?_ ?_)
    · intro binding member
      apply Value.renumber_congr
      intro closure closes
      exact agrees closure (grounded.closures id scope stored binding member closure closes)
    · intro parent inside
      have older := grounded.lt_of_encloses ⟨scope, stored, inside⟩
      exact agrees parent (Nat.lt_trans older (Array.getElem?_eq_some_iff.1 stored).1)

/-- The padded heap is the plain one but for padding and numbers. -/
structure Padded (padding : Padding) (padded plain : Heap) : Prop where
  callables : padded.callables = plain.callables
  stands_lt : ∀ id < padded.scopes.size, padding.stands id < plain.scopes.size
  own_lt : ∀ id < plain.scopes.size, padding.own id < padded.scopes.size
  stands_own : ∀ id < plain.scopes.size, padding.stands (padding.own id) = id
  same : ∀ id < padded.scopes.size, padding.IsOwn id →
    plain.scopes[padding.stands id]? = padded.scopes[id]?.map (Scope.renumber padding.stands)
  empty : ∀ id < padded.scopes.size, ¬ padding.IsOwn id →
    ∃ parent < id, padded.scopes[id]? = some { enclosing := some parent } ∧
      padding.stands parent = padding.stands id

namespace Padded

variable {padding : Padding} {padded plain : Heap} (joined : padded.Padded padding plain)
include joined

theorem local?_own {id : ScopeId} (present : id < padded.scopes.size) (own : padding.IsOwn id)
    (name : String) :
    plain.local? (padding.stands id) name =
      (padded.local? id name).map (Value.renumber padding.stands) := by
  rw [local?, local?, joined.same id present own]
  cases padded.scopes[id]? with
  | none => rfl
  | some scope => exact scope.find?_renumber name

/-- Nothing is bound in padding. -/
theorem local?_padding {id : ScopeId} (present : id < padded.scopes.size)
    (notOwn : ¬ padding.IsOwn id) (name : String) : padded.local? id name = none := by
  obtain ⟨parent, _, stored, _⟩ := joined.empty id present notOwn
  rw [local?, stored]
  rfl

/-- Around a scope of its own stands what its parent stands for. -/
theorem encloses_own {id parent : ScopeId} (present : id < padded.scopes.size)
    (own : padding.IsOwn id) (encloses : padded.Encloses parent id) :
    plain.Encloses (padding.stands parent) (padding.stands id) := by
  obtain ⟨scope, stored, inside⟩ := encloses
  refine ⟨scope.renumber padding.stands, ?_, ?_⟩
  · rw [joined.same id present own, stored]
    rfl
  · rw [Scope.renumber, inside]
    rfl

/-- Looking for a name goes through padding as if it were not there. -/
theorem search {globals : ScopeId} (grounded : padded.Grounded globals) {name : String}
    {start : ScopeId} {visited : List ScopeId} {found : Option ScopeId}
    (search : padded.Search name start visited found) (present : start < padded.scopes.size) :
    (∃ others, plain.Search name (padding.stands start) others (found.map padding.stands)) ∧
      ∀ binder, found = some binder → binder < padded.scopes.size ∧ padding.IsOwn binder := by
  induction search with
  | @here id bound =>
    have own : padding.IsOwn id := by
      refine Decidable.byContradiction fun notOwn => ?_
      rw [joined.local?_padding present notOwn] at bound
      cases bound
    refine ⟨⟨_, .here ?_⟩, ?_⟩
    · rw [joined.local?_own present own, Option.isSome_map]
      exact bound
    · rintro binder ⟨⟩
      exact ⟨present, own⟩
  | @outwards id parent visited found unbound encloses further ih =>
    obtain ⟨⟨others, ahead⟩, binds⟩ :=
      ih (Nat.lt_trans (grounded.lt_of_encloses encloses) present)
    refine ⟨?_, binds⟩
    by_cases own : padding.IsOwn id
    · refine ⟨_, .outwards ?_ (joined.encloses_own present own encloses) ahead⟩
      rw [joined.local?_own present own, unbound]
      rfl
    · obtain ⟨outer, _, stored, same⟩ := joined.empty id present own
      obtain ⟨scope, also, inside⟩ := encloses
      obtain rfl := Option.some.inj (also.symm.trans stored)
      obtain rfl := Option.some.inj inside
      rw [← same]
      exact ⟨others, ahead⟩
  | @nowhere id unbound outermost =>
    have own : padding.IsOwn id := by
      refine Decidable.byContradiction fun notOwn => ?_
      obtain ⟨parent, _, stored, _⟩ := joined.empty id present notOwn
      exact outermost parent ⟨_, stored, rfl⟩
    refine ⟨⟨_, .nowhere ?_ ?_⟩, nofun⟩
    · rw [joined.local?_own present own, unbound]
      rfl
    · rintro outer ⟨scope, stored, inside⟩
      rw [joined.same id present own] at stored
      obtain ⟨old, kept, rfl⟩ := Option.map_eq_some_iff.1 stored
      obtain ⟨parent, around, _⟩ := Option.map_eq_some_iff.1 inside
      exact outermost parent ⟨old, kept, around⟩

section Lookup

variable {globals others start : ScopeId} (grounded : padded.Grounded globals)
variable (plainly : plain.Grounded others) (present : start < padded.scopes.size) (name : String)
include grounded plainly present

theorem binder?_eq :
    plain.binder? (padding.stands start) name = (padded.binder? start name).map padding.stands ∧
      ∀ binder, padded.binder? start name = some binder →
        binder < padded.scopes.size ∧ padding.IsOwn binder := by
  obtain ⟨_, looked, _⟩ := grounded.search_binder? name present
  obtain ⟨_, also, _⟩ := plainly.search_binder? name (joined.stands_lt start present)
  obtain ⟨⟨_, same⟩, binds⟩ := joined.search grounded looked present
  exact ⟨also.unique same, binds⟩

theorem find?_eq :
    plain.find? (padding.stands start) name =
      (padded.find? start name).map (Value.renumber padding.stands) := by
  obtain ⟨same, binds⟩ := joined.binder?_eq grounded plainly present name
  rw [find?, find?, same]
  cases found : padded.binder? start name with
  | none => rfl
  | some binder =>
    obtain ⟨stored, own⟩ := binds binder found
    exact joined.local?_own stored own name

end Lookup

/-- The same change to a scope of its own on both sides. -/
theorem modify {target : ScopeId} (own : padding.IsOwn target) {change other : Scope → Scope}
    (alike : ∀ scope, (change scope).renumber padding.stands = other (scope.renumber padding.stands)) :
    (padded.modify target change).Padded padding (plain.modify (padding.stands target) other) where
  callables := joined.callables
  stands_lt id stored := by
    simp only [Heap.modify, Array.size_modify] at stored ⊢
    exact joined.stands_lt id stored
  own_lt id stored := by
    simp only [Heap.modify, Array.size_modify] at stored ⊢
    exact joined.own_lt id stored
  stands_own id stored := by
    simp only [Heap.modify, Array.size_modify] at stored
    exact joined.stands_own id stored
  same id stored idOwn := by
    simp only [Heap.modify, Array.size_modify, Array.getElem?_modify] at stored ⊢
    have before := joined.same id stored idOwn
    by_cases here : target = id
    · subst here
      rw [if_pos rfl, if_pos rfl, before, Option.map_map, Option.map_map]
      congr 1
      funext scope
      exact (alike scope).symm
    · have apart : padding.stands target ≠ padding.stands id := by
        intro equal
        exact here (own.symm.trans ((congrArg padding.own equal).trans idOwn))
      rw [if_neg here, if_neg apart, before]
  empty id stored notOwn := by
    simp only [Heap.modify, Array.size_modify, Array.getElem?_modify] at stored ⊢
    have apart : target ≠ id := fun equal => notOwn (equal ▸ own)
    rw [if_neg apart]
    exact joined.empty id stored notOwn

/-- A new scope on both sides, inside scopes that stand for each other. -/
theorem addScope {globals enclosing : ScopeId} (grounded : padded.Grounded globals)
    (present : enclosing < padded.scopes.size) :
    (padded.addScope (some enclosing)).2.Padded (padding.pair padded.scopes.size plain.scopes.size)
      (plain.addScope (some (padding.stands enclosing))).2 := by
  let after := padding.pair padded.scopes.size plain.scopes.size
  have stands {id : ScopeId} (old : id < padded.scopes.size) : after.stands id = padding.stands id :=
    if_neg (Nat.ne_of_lt old)
  have own {id : ScopeId} (old : id < plain.scopes.size) : after.own id = padding.own id :=
    if_neg (Nat.ne_of_lt old)
  have fresh : after.stands padded.scopes.size = plain.scopes.size := if_pos rfl
  have freshOwn : after.own plain.scopes.size = padded.scopes.size := if_pos rfl
  have isOwn {id : ScopeId} (old : id < padded.scopes.size) : after.IsOwn id ↔ padding.IsOwn id := by
    rw [Padding.IsOwn, stands old, own (joined.stands_lt id old), Padding.IsOwn]
  refine ⟨joined.callables, ?_, ?_, ?_, ?_, ?_⟩ <;>
    simp only [Heap.addScope, Array.size_push, Nat.lt_succ_iff_lt_or_eq, Array.getElem?_push]
  · rintro id (old | rfl)
    · exact .inl (stands old ▸ joined.stands_lt id old)
    · exact .inr fresh
  · rintro id (old | rfl)
    · exact .inl (own old ▸ joined.own_lt id old)
    · exact .inr freshOwn
  · rintro id (old | rfl)
    · exact (congrArg after.stands (own old)).trans
        ((stands (joined.own_lt id old)).trans (joined.stands_own id old))
    · exact (congrArg after.stands freshOwn).trans fresh
  · rintro id (old | rfl) idOwn
    · have before := joined.same id old ((isOwn old).1 idOwn)
      have kept := grounded.renumber_eq (fun id old => stands old) id
      have below := joined.stands_lt id old
      rw [stands old, if_neg (Nat.ne_of_lt below), if_neg (Nat.ne_of_lt old), before, kept]
    · rw [fresh, if_pos rfl, if_pos rfl, Option.map_some, Scope.renumber, Option.map_some,
        stands present]
      rfl
  · rintro id (old | rfl) notOwn
    · obtain ⟨parent, older, stored, same⟩ := joined.empty id old fun own => notOwn ((isOwn old).2 own)
      refine ⟨parent, older, ?_, ?_⟩
      · rw [if_neg (Nat.ne_of_lt old), stored]
      · rw [stands (Nat.lt_trans older old), stands old, same]
    · exact absurd ((congrArg after.own fresh).trans freshOwn) notOwn

/-- A new scope of padding. -/
theorem addPadding {globals enclosing : ScopeId} (grounded : padded.Grounded globals)
    (present : enclosing < padded.scopes.size) :
    (padded.addScope (some enclosing)).2.Padded (padding.pad padded.scopes.size enclosing) plain := by
  let after := padding.pad padded.scopes.size enclosing
  have stands {id : ScopeId} (old : id < padded.scopes.size) : after.stands id = padding.stands id :=
    if_neg (Nat.ne_of_lt old)
  have fresh : after.stands padded.scopes.size = padding.stands enclosing := if_pos rfl
  have isOwn {id : ScopeId} (old : id < padded.scopes.size) : after.IsOwn id ↔ padding.IsOwn id := by
    rw [Padding.IsOwn, stands old, Padding.IsOwn]
    rfl
  have below := joined.stands_lt enclosing present
  have standsOwn (id : ScopeId) (old : id < plain.scopes.size) : after.stands (after.own id) = id :=
    (stands (joined.own_lt id old)).trans (joined.stands_own id old)
  refine ⟨joined.callables, ?_, ?_, standsOwn, ?_, ?_⟩ <;>
    simp only [Heap.addScope, Array.size_push, Nat.lt_succ_iff_lt_or_eq, Array.getElem?_push]
  · rintro id (old | rfl)
    · exact stands old ▸ joined.stands_lt id old
    · exact fresh ▸ below
  · exact fun id old => .inl (joined.own_lt id old)
  · rintro id (old | rfl) idOwn
    · have before := joined.same id old ((isOwn old).1 idOwn)
      have kept := grounded.renumber_eq (fun id old => stands old) id
      rw [stands old, if_neg (Nat.ne_of_lt old), before, kept]
    · -- The scope that padding stands for has an older scope of its own.
      have older : after.own (after.stands padded.scopes.size) < padded.scopes.size := by
        rw [fresh]
        exact joined.own_lt _ below
      exact absurd idOwn (Nat.ne_of_lt older)
  · rintro id (old | rfl) notOwn
    · obtain ⟨parent, older, stored, same⟩ := joined.empty id old fun own => notOwn ((isOwn old).2 own)
      refine ⟨parent, older, ?_, ?_⟩
      · rw [if_neg (Nat.ne_of_lt old), stored]
      · rw [stands (Nat.lt_trans older old), stands old, same]
    · exact ⟨enclosing, present, if_pos rfl, (stands present).trans fresh.symm⟩

end Padded

/-- Every heap is itself without padding. -/
theorem Padded.refl (heap : Heap) : heap.Padded .none heap where
  callables := rfl
  stands_lt _ present := present
  own_lt _ present := present
  stands_own _ _ := rfl
  same scope _ _ := by
    show heap.scopes[scope]? = heap.scopes[scope]?.map (Scope.renumber id)
    cases heap.scopes[scope]? with
    | none => rfl
    | some stored => exact congrArg some stored.renumber_id.symm
  empty _ _ notOwn := absurd rfl notOwn

end Heap

end TinyScript
