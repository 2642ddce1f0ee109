import TinyScript.Proofs.Regime

/-! What stands on a heap. If all bound values are of some sort, they stay so with new scopes, and with
values of that sort under new and old names. -/
namespace TinyScript

/-- All values that the scope binds are of the given sort. -/
def Scope.Stores (fine : Value → Prop) (scope : Scope) : Prop :=
  ∀ binding ∈ scope.bindings, fine binding.2

/-- All values that scopes of the heap bind are of the given sort. -/
def Heap.Stores (fine : Value → Prop) (heap : Heap) : Prop :=
  ∀ (id : ScopeId) (scope : Scope), heap.scopes[id]? = some scope → scope.Stores fine

variable {fine : Value → Prop}

theorem Scope.Stores.insert {scope : Scope} (stores : scope.Stores fine) (name : String) {value : Value}
    (given : fine value) : (scope.insert name value).Stores fine :=
  List.forall_mem_cons.2 ⟨given, stores⟩

theorem Scope.Stores.update {scope : Scope} (stores : scope.Stores fine) (name : String) {value : Value}
    (given : fine value) : (scope.update name value).Stores fine := by
  intro binding member
  obtain ⟨⟨key, old⟩, listed, rfl⟩ := List.mem_map.1 member
  dsimp only
  split
  · exact given
  · exact stores _ listed

namespace Heap.Stores

variable {heap : Heap} (stores : heap.Stores fine)
include stores

theorem imp {other : Value → Prop} (implies : ∀ value, fine value → other value) : heap.Stores other :=
  fun id scope stored binding member => implies _ (stores id scope stored binding member)

theorem modify (id : ScopeId) {change : Scope → Scope}
    (keeps : ∀ scope : Scope, scope.Stores fine → (change scope).Stores fine) :
    (heap.modify id change).Stores fine := by
  intro other scope stored
  simp only [Heap.modify, Array.getElem?_modify] at stored
  split at stored
  · obtain ⟨old, found, rfl⟩ := Option.map_eq_some_iff.1 stored
    exact keeps old (stores _ old found)
  · exact stores other scope stored

theorem addScope (enclosing : Option ScopeId) : (heap.addScope enclosing).2.Stores fine := by
  intro id scope stored
  simp only [Heap.addScope, Array.getElem?_push] at stored
  split at stored
  · cases stored
    intro binding member
    cases member
  · exact stores id scope stored

theorem bound {id : ScopeId} {name : String} {value : Value}
    (found : heap.local? id name = some value) : fine value := by
  obtain ⟨scope, stored, present⟩ := Option.bind_eq_some_iff.1 found
  obtain ⟨before, after, shape, _⟩ := List.lookup_eq_some_iff.1 present
  refine stores id scope stored (name, value) ?_
  rw [shape]
  exact List.mem_append_right _ List.mem_cons_self

theorem bind (id : ScopeId) (name : String) {value : Value} (given : fine value) :
    (heap.bind id name value).Stores fine := by
  refine stores.modify id fun scope kept => ?_
  split
  · exact kept.update name given
  · exact kept.insert name given

theorem bindNatives (id : ScopeId)
    (natives : ∀ identity builtin, fine (.callable ⟨identity, .builtIn builtin⟩)) :
    (heap.bindNatives id).Stores fine := by
  refine List.foldlRecOn Native.all _ stores ?_
  intro heap stores builtin _
  exact Heap.Stores.bind (fun id scope stored => stores id scope stored) id builtin.name (natives _ _)

end Heap.Stores

/-- A fresh machine knows only native functions. -/
theorem Machine.start_stores (readings : Nat → Int64)
    (natives : ∀ identity builtin, fine (.callable ⟨identity, .builtIn builtin⟩)) :
    (Machine.start readings).heap.Stores fine := by
  have empty : Heap.Stores fine {} := by
    intro id scope stored
    simp at stored
  exact (empty.addScope none).bindNatives _ natives

end TinyScript
