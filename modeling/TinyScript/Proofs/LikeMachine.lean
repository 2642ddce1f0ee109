import Mathlib.Data.List.Find
import TinyScript.Proofs.Likeness
import TinyScript.Run.Eval

/-! Machines that are alike as far as a program can see: the scopes it can reach hold like values,
and what lies outside of them is of no account. -/
namespace TinyScript

/-- What two machines have in common. Tokens differ no further than the likeness allows; the scopes
that are `seen` are alike, and the others hold `left` on the one machine and `right` on the other. -/
structure View extends Likeness where
  seen : ScopeId → Prop
  left : ScopeId → Option Scope
  right : ScopeId → Option Scope

/-- The view of a program that can see every scope. -/
def Likeness.everywhere (like : Likeness) : View where
  toLikeness := like
  seen _ := True
  left _ := none
  right _ := none

/-- The scope that a function of the program was declared in. -/
def Value.closure? : Value → Option ScopeId
  | .callable ⟨_, .declared function⟩ => some function.closure
  | _ => none

/-- Functions of like declarations in the same scope, which is seen. -/
structure Function.Like (view : View) (function other : Function) : Prop where
  name : view.names function.name other.name
  parameters : List.Forall₂ view.names function.parameters other.parameters
  body : List.Forall₂ (Stmt.Like view.toLikeness) function.body other.body
  closure : function.closure = other.closure
  seen : view.seen function.closure

/-- The same value, but for the tokens inside functions. -/
inductive Value.Like (view : View) : Value → Value → Prop where
  | nil : Like view .nil .nil
  | bool (value : Bool) : Like view (.bool value) (.bool value)
  | int (value : Int64) : Like view (.int value) (.int value)
  | string (value : String) : Like view (.string value) (.string value)
  | bytes (value : List UInt8) : Like view (.bytes value) (.bytes value)
  | builtIn (identity : Nat) (builtin : Native) :
      Like view (.callable ⟨identity, .builtIn builtin⟩) (.callable ⟨identity, .builtIn builtin⟩)
  | declared (identity : Nat) {function other : Function} (same : function.Like view other) :
      Like view (.callable ⟨identity, .declared function⟩) (.callable ⟨identity, .declared other⟩)

/-- The scopes bind the same names to like values, inside the same scope. -/
structure Scope.Like (view : View) (scope other : Scope) : Prop where
  enclosing : scope.enclosing = other.enclosing
  seen : ∀ parent, scope.enclosing = some parent → view.seen parent
  values : ∀ name, Option.Rel (Value.Like view) (scope.find? name) (other.find? name)

structure Heap.Like (view : View) (heap other : Heap) : Prop where
  size : heap.scopes.size = other.scopes.size
  callables : heap.callables = other.callables
  fresh : ∀ scope, heap.scopes.size ≤ scope → view.seen scope
  visible : ∀ scope, view.seen scope →
    Option.Rel (Scope.Like view) heap.scopes[scope]? other.scopes[scope]?
  hidden : ∀ scope, ¬ view.seen scope →
    heap.scopes[scope]? = view.left scope ∧ other.scopes[scope]? = view.right scope

structure Machine.Like (view : View) (machine other : Machine) : Prop where
  heap : machine.heap.Like view other.heap
  globals : machine.globals = other.globals
  scope : machine.scope = other.scope
  seen : view.seen machine.scope
  depth : machine.depth = other.depth
  output : machine.output = other.output
  clock : machine.clock = other.clock

/-- The same cause at like tokens. -/
inductive RuntimeError.Like (like : Likeness) : RuntimeError → RuntimeError → Prop where
  | atName (cause : RuntimeCause) {name name' : Token} (same : like.names name name') :
      Like like ⟨cause, name⟩ ⟨cause, name'⟩
  | atMark (cause : RuntimeCause) {mark mark' : Token} (same : like.marks mark mark') :
      Like like ⟨cause, mark⟩ ⟨cause, mark'⟩

/-- Both give like results, or both fail with like errors. -/
inductive AlikeAnswers (like : Likeness) {α β : Type} (values : α → β → Prop) :
    Except RuntimeError α → Except RuntimeError β → Prop where
  | ok {value : α} {other : β} (same : values value other) :
      AlikeAnswers like values (.ok value) (.ok other)
  | error {error other : RuntimeError} (same : error.Like like other) :
      AlikeAnswers like values (.error error) (.error other)

variable {view : View}

theorem none_or_some_of_rel {α β : Type} {values : α → β → Prop} {first : Option α}
    {second : Option β} (same : Option.Rel values first second) :
    (first = none ∧ second = none) ∨
      ∃ value other, first = some value ∧ second = some other ∧ values value other := by
  cases same with
  | some same => exact .inr ⟨_, _, rfl, rfl, same⟩
  | none => exact .inl ⟨rfl, rfl⟩

namespace Value.Like

variable {value other : Value}

theorem isTruthy_eq (same : value.Like view other) : value.isTruthy = other.isTruthy := by
  cases same <;> rfl

theorem text_eq (same : value.Like view other) : value.text = other.text := by
  cases same with
  | declared identity same => simp [text, Routine.text, view.lexeme_eq same.name]
  | _ => rfl

theorem hexText?_eq (same : value.Like view other) : value.hexText? = other.hexText? := by
  cases same <;> rfl

theorem same_eq {left left' right right' : Value} (first : left.Like view left')
    (second : right.Like view right') : left.same right = left'.same right' := by
  cases first <;> cases second <;> rfl

theorem texts_eq {values others : List Value} (same : List.Forall₂ (Value.Like view) values others) :
    values.map text = others.map text := by
  induction same with
  | nil => rfl
  | cons first _ ih => rw [List.map_cons, List.map_cons, first.text_eq, ih]

theorem hexTexts_eq {values others : List Value}
    (same : List.Forall₂ (Value.Like view) values others) :
    values.mapM hexText? = others.mapM hexText? := by
  induction same with
  | nil => rfl
  | cons first _ ih => rw [List.mapM_cons, List.mapM_cons, first.hexText?_eq, ih]

theorem ofPrimitive (value : Primitive) :
    (Value.ofPrimitive value).Like view (Value.ofPrimitive value) := by
  cases value with
  | nil => exact .nil
  | bool value => exact .bool value
  | int value => exact .int value
  | string value => exact .string value
  | bytes value => exact .bytes value

/-- A value is like itself if its closure is seen. -/
theorem refl (reflexive : view.toLikeness.Reflexive) (value : Value)
    (seen : ∀ scope, value.closure? = some scope → view.seen scope) : value.Like view value := by
  cases value with
  | nil => exact .nil
  | bool value => exact .bool value
  | int value => exact .int value
  | string value => exact .string value
  | bytes value => exact .bytes value
  | callable callable =>
    obtain ⟨identity, routine⟩ := callable
    cases routine with
    | builtIn builtin => exact .builtIn identity builtin
    | declared function =>
      exact .declared identity {
        name := reflexive.names _
        parameters := List.forall₂_same.2 fun name _ => reflexive.names name
        body := reflexive.stmts _
        closure := rfl
        seen := seen function.closure rfl }

end Value.Like

section Operators

variable {operator operator' : Token} (mark : view.marks operator operator')
include mark

theorem alike_exactValue (value : Int) :
    AlikeAnswers view.toLikeness (Value.Like view) (exactValue operator value)
      (exactValue operator' value) := by
  unfold exactValue
  split
  · exact .ok (.int _)
  · exact .error (.atMark _ mark)

theorem alike_applySign {right right' : Value} (same : right.Like view right') :
    AlikeAnswers view.toLikeness (Value.Like view) (applySign operator right)
      (applySign operator' right') := by
  unfold applySign
  rw [view.kind_eq mark, same.isTruthy_eq]
  split
  · exact .ok (.bool _)
  · cases same with
    | int value => exact alike_exactValue mark _
    | _ => exact .error (.atMark _ mark)

theorem alike_applyToInts (left right : Int64) :
    AlikeAnswers view.toLikeness (Value.Like view) (applyToInts operator left right)
      (applyToInts operator' left right) := by
  unfold applyToInts
  rw [view.kind_eq mark]
  split
  case h_4 =>
    split
    · exact .error (.atMark _ mark)
    · exact alike_exactValue mark _
  case h_1 | h_2 | h_3 => exact alike_exactValue mark _
  case h_5 | h_6 | h_7 | h_8 => exact .ok (.bool _)
  case h_9 => exact .error (.atMark _ mark)

theorem alike_operandError :
    (operandError operator).Like view.toLikeness (operandError operator') := by
  unfold operandError
  rw [view.kind_eq mark]
  split
  · exact .atMark _ mark
  · exact .atMark _ mark

theorem alike_applyOperator {left left' right right' : Value} (first : left.Like view left')
    (second : right.Like view right') :
    AlikeAnswers view.toLikeness (Value.Like view) (applyOperator operator left right)
      (applyOperator operator' left' right') := by
  unfold applyOperator
  rw [view.kind_eq mark, first.same_eq second]
  split
  · exact .ok (.bool _)
  split
  · exact .ok (.bool _)
  have refused := alike_operandError mark
  cases first with
  | int left =>
    cases second with
    | int right => exact alike_applyToInts mark left right
    | _ => exact .error refused
  | string left =>
    cases second with
    | string right =>
      dsimp only
      split
      · exact .ok (.string _)
      · exact .error refused
    | _ => exact .error refused
  | _ => exact .error refused

theorem settles_eq {left left' : Value} (same : left.Like view left') :
    settles operator left = settles operator' left' := by
  rw [settles, settles, view.kind_eq mark, same.isTruthy_eq]

theorem alike_stepped (value : Int64) :
    AlikeAnswers view.toLikeness (Value.Like view) (stepped operator value)
      (stepped operator' value) := by
  unfold stepped
  rw [view.kind_eq mark]
  split
  · exact alike_exactValue mark _
  · exact alike_exactValue mark _

end Operators

namespace Scope.Like

variable {scope other : Scope}

theorem insert (same : scope.Like view other) (name : String) {value value' : Value}
    (given : value.Like view value') :
    (scope.insert name value).Like view (other.insert name value') where
  enclosing := same.enclosing
  seen := same.seen
  values key := by
    rw [find?_insert, find?_insert]
    split
    · exact .some given
    · exact same.values key

theorem update (same : scope.Like view other) (name : String) {value value' : Value}
    (given : value.Like view value') :
    (scope.update name value).Like view (other.update name value') where
  enclosing := same.enclosing
  seen := same.seen
  values key := by
    have before := same.values key
    rw [find?_update, find?_update]
    split
    · obtain ⟨absent, absent'⟩ | ⟨old, old', bound, bound', _⟩ := none_or_some_of_rel before
      · rw [absent, absent']
        exact .none
      · rw [bound, bound']
        exact .some given
    · exact before

end Scope.Like

namespace Heap.Like

variable {heap other : Heap} (same : heap.Like view other)
include same

theorem local?_alike {scope : ScopeId} (seen : view.seen scope) (name : String) :
    Option.Rel (Value.Like view) (heap.local? scope name) (other.local? scope name) := by
  unfold local?
  obtain ⟨absent, absent'⟩ | ⟨here, here', present, present', alike⟩ :=
    none_or_some_of_rel (same.visible scope seen)
  · rw [absent, absent']
    exact .none
  · rw [present, present']
    exact alike.values name

/-- From a scope that is seen, the same scopes enclose each other, and all of them are seen. -/
theorem chainFrom_eq (count : Nat) {start : ScopeId} (seen : view.seen start) :
    heap.chainFrom count start = other.chainFrom count start ∧
      ∀ scope ∈ heap.chainFrom count start, view.seen scope := by
  induction count generalizing start with
  | zero => simp [chainFrom]
  | succ count ih =>
    unfold chainFrom
    obtain ⟨absent, absent'⟩ | ⟨here, here', present, present', alike⟩ :=
      none_or_some_of_rel (same.visible start seen)
    · rw [absent, absent']
      simp
    · rw [present, present']
      simp only [← alike.enclosing]
      cases outer : here.enclosing with
      | none => simpa using seen
      | some parent =>
        obtain ⟨equal, within⟩ := ih (alike.seen parent outer)
        simp only [equal, List.mem_cons, forall_eq_or_imp, true_and]
        exact ⟨seen, equal ▸ within⟩

theorem binder?_eq {start : ScopeId} (seen : view.seen start) (name : String) :
    heap.binder? start name = other.binder? start name ∧
      ∀ binder, heap.binder? start name = some binder → view.seen binder := by
  obtain ⟨equal, within⟩ := same.chainFrom_eq heap.scopes.size seen
  have chains : other.chain start = heap.chain start := by
    rw [chain, chain, ← same.size]
    exact equal.symm
  constructor
  · unfold binder?
    rw [chains]
    apply List.find?_congr
    intro scope member
    obtain ⟨absent, absent'⟩ | ⟨_, _, bound, bound', _⟩ :=
      none_or_some_of_rel (same.local?_alike (within scope member) name)
    · rw [absent, absent']
    · rw [bound, bound']
      rfl
  · intro binder found
    exact within binder (List.mem_of_find?_eq_some found)

theorem find?_alike {start : ScopeId} (seen : view.seen start) (name : String) :
    Option.Rel (Value.Like view) (heap.find? start name) (other.find? start name) := by
  obtain ⟨equal, within⟩ := same.binder?_eq seen name
  unfold find?
  rw [← equal]
  cases found : heap.binder? start name with
  | none => exact .none
  | some binder => exact same.local?_alike (within binder found) name

theorem get_alike {scope : ScopeId} (seen : view.seen scope) {name name' : Token}
    (named : view.names name name') :
    AlikeAnswers view.toLikeness (Value.Like view) (heap.get scope name)
      (other.get scope name') := by
  unfold get undefinedName
  rw [← view.lexeme_eq named]
  obtain ⟨absent, absent'⟩ | ⟨_, _, bound, bound', alike⟩ :=
    none_or_some_of_rel (same.find?_alike seen name.lexeme)
  · rw [absent, absent']
    exact .error (.atName _ named)
  · rw [bound, bound']
    exact .ok alike

/-- Like changes to a scope that is seen keep heaps alike. -/
theorem modify {scope : ScopeId} (seen : view.seen scope) {change change' : Scope → Scope}
    (alike : ∀ before before', before.Like view before' → (change before).Like view (change' before')) :
    (heap.modify scope change).Like view (other.modify scope change') where
  size := by simpa [Heap.modify] using same.size
  callables := same.callables
  fresh id above := same.fresh id (by simpa [Heap.modify] using above)
  visible id idSeen := by
    have visible := same.visible id idSeen
    simp only [Heap.modify, Array.getElem?_modify]
    split
    · obtain ⟨absent, absent'⟩ | ⟨_, _, present, present', before⟩ := none_or_some_of_rel visible
      · rw [absent, absent']
        exact .none
      · rw [present, present']
        exact .some (alike _ _ before)
    · exact visible
  hidden id notSeen := by
    have apart : scope ≠ id := fun equal => notSeen (equal ▸ seen)
    simpa [Heap.modify, Array.getElem?_modify, apart] using same.hidden id notSeen

theorem assign_alike {scope : ScopeId} (seen : view.seen scope) {name name' : Token}
    (named : view.names name name') {value value' : Value} (given : value.Like view value') :
    AlikeAnswers view.toLikeness (Heap.Like view) (heap.assign scope name value)
      (other.assign scope name' value') := by
  obtain ⟨equal, within⟩ := same.binder?_eq seen name.lexeme
  unfold assign undefinedName
  rw [← view.lexeme_eq named, ← equal]
  cases found : heap.binder? scope name.lexeme with
  | none => exact .error (.atName _ named)
  | some binder =>
    exact .ok (same.modify (within binder found) fun _ _ before => before.update _ given)

theorem define_alike {scope : ScopeId} (seen : view.seen scope) {name name' : Token}
    (named : view.names name name') {value value' : Value} (given : value.Like view value') :
    AlikeAnswers view.toLikeness (Heap.Like view) (heap.define scope name value)
      (other.define scope name' value') := by
  unfold define
  rw [← view.lexeme_eq named]
  obtain ⟨absent, absent'⟩ | ⟨_, _, bound, bound', _⟩ :=
    none_or_some_of_rel (same.local?_alike seen name.lexeme)
  · rw [absent, absent']
    exact .ok (same.modify seen fun _ _ before => before.insert _ given)
  · rw [bound, bound']
    exact .error (.atName _ named)

/-- A new scope gets the same number on both sides, and it is seen. -/
theorem addScope_alike {enclosing : ScopeId} (seen : view.seen enclosing) :
    (heap.addScope (some enclosing)).1 = (other.addScope (some enclosing)).1 ∧
      view.seen (heap.addScope (some enclosing)).1 ∧
      (heap.addScope (some enclosing)).2.Like view (other.addScope (some enclosing)).2 := by
  have opened : Scope.Like view { enclosing := some enclosing } { enclosing := some enclosing } :=
    ⟨rfl, fun parent equal => Option.some.inj equal ▸ seen, fun _ => .none⟩
  refine ⟨same.size, same.fresh _ (Nat.le_refl _), ?_⟩
  exact {
    size := by simpa [addScope] using same.size
    callables := same.callables
    fresh := fun id above => same.fresh id (by simp [addScope] at above; omega)
    visible := by
      intro id idSeen
      simp only [addScope, Array.getElem?_push, ← same.size]
      split
      · exact .some opened
      · exact same.visible id idSeen
    hidden := by
      intro id notSeen
      have old : id ≠ heap.scopes.size := fun equal =>
        notSeen (same.fresh id (Nat.le_of_eq equal.symm))
      simp only [addScope, Array.getElem?_push, ← same.size, old, if_false]
      exact same.hidden id notSeen }

end Heap.Like

section Reflexive

variable {like : Likeness} (reflexive : like.Reflexive)
include reflexive

theorem Scope.Like.refl (scope : Scope) : scope.Like like.everywhere scope where
  enclosing := rfl
  seen _ _ := trivial
  values name := by
    cases scope.find? name with
    | some value => exact .some (.refl reflexive value fun _ _ => trivial)
    | none => exact .none

theorem Heap.Like.refl (heap : Heap) : heap.Like like.everywhere heap where
  size := rfl
  callables := rfl
  fresh _ _ := trivial
  visible id _ := by
    cases heap.scopes[id]? with
    | some scope => exact .some (.refl reflexive scope)
    | none => exact .none
  hidden _ notSeen := absurd trivial notSeen

theorem Machine.Like.refl (machine : Machine) : machine.Like like.everywhere machine where
  heap := .refl reflexive machine.heap
  globals := rfl
  scope := rfl
  seen := trivial
  depth := rfl
  output := rfl
  clock := rfl

end Reflexive

end TinyScript
