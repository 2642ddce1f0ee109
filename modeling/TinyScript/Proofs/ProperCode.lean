import Mathlib
import TinyScript.Proofs.StatementShape
import TinyScript.Proofs.Stores

/-! Proper code: well-shaped trees with tokens of a given sort, and heaps on which all functions are
declared by such trees. A heap stays proper with new scopes, with proper values under new and old names,
and with native functions. -/
namespace TinyScript

/-- A well-shaped expression with tokens of a given sort. -/
structure Expr.Proper (own : Token → Prop) (value : Expr) : Prop where
  shape : value.wellShaped = true
  known : ∀ token ∈ value.tokens, own token

/-- A well-shaped statement with tokens of a given sort. -/
structure Stmt.Proper (own : Token → Prop) (statement : Stmt) : Prop where
  shape : statement.wellShaped = true
  known : ∀ token ∈ statement.tokens, own token

variable {own : Token → Prop}

namespace Expr.Proper

variable {operator name : Token} {left right value : Expr}

theorem grouping (proper : (grouping value).Proper own) : value.Proper own :=
  ⟨proper.shape, proper.known⟩

theorem unary (proper : (unary operator right).Proper own) : own operator ∧ right.Proper own := by
  obtain ⟨shape, known⟩ := proper
  simp only [wellShaped, Bool.and_eq_true] at shape
  simp only [tokens, List.forall_mem_cons] at known
  exact ⟨known.1, shape.2, known.2⟩

theorem binary (proper : (binary left operator right).Proper own) :
    left.Proper own ∧ own operator ∧ right.Proper own := by
  obtain ⟨shape, known⟩ := proper
  simp only [wellShaped, Bool.and_eq_true] at shape
  simp only [tokens, List.forall_mem_append, List.forall_mem_cons] at known
  exact ⟨⟨shape.1.2, known.1⟩, known.2.1, ⟨shape.2, known.2.2⟩⟩

theorem logical (proper : (logical left operator right).Proper own) :
    left.Proper own ∧ right.Proper own := by
  obtain ⟨shape, known⟩ := proper
  simp only [wellShaped, Bool.and_eq_true] at shape
  simp only [tokens, List.forall_mem_append, List.forall_mem_cons] at known
  exact ⟨⟨shape.1.2, known.1⟩, shape.2, known.2.2⟩

theorem var (proper : (var name).Proper own) : own name :=
  proper.known name List.mem_cons_self

theorem assign (proper : (assign name value).Proper own) : own name ∧ value.Proper own := by
  obtain ⟨shape, known⟩ := proper
  simp only [wellShaped, Bool.and_eq_true] at shape
  simp only [tokens, List.forall_mem_cons] at known
  exact ⟨known.1, shape.2, known.2⟩

theorem increment {sign : Token} (proper : (increment name sign).Proper own) :
    own name ∧ own sign := by
  simpa [tokens] using proper.known

theorem arguments {values : List Expr} (shape : allWellShaped values = true)
    (known : ∀ token ∈ allTokens values, own token) : ∀ value ∈ values, value.Proper own := by
  induction values with
  | nil => simp
  | cons first others ih =>
    simp only [allWellShaped, Bool.and_eq_true] at shape
    simp only [allTokens, List.forall_mem_append] at known
    exact List.forall_mem_cons.2 ⟨⟨shape.1, known.1⟩, ih shape.2 known.2⟩

theorem call {paren : Token} {values : List Expr} (proper : (call value paren values).Proper own) :
    value.Proper own ∧ own paren ∧ ∀ argument ∈ values, argument.Proper own := by
  obtain ⟨shape, known⟩ := proper
  simp only [wellShaped, Bool.and_eq_true] at shape
  simp only [tokens, List.forall_mem_append, List.forall_mem_cons] at known
  exact ⟨⟨shape.1.2, known.1⟩, known.2.1, arguments shape.2 known.2.2⟩

end Expr.Proper

theorem optional_proper {optional : Option Expr} (shape : optional.all Expr.wellShaped = true)
    (known : ∀ token ∈ optional.toList.flatMap Expr.tokens, own token) :
    ∀ value ∈ optional, value.Proper own := by
  cases optional with
  | none => simp
  | some present => simpa using Expr.Proper.mk shape (by simpa using known)

namespace Stmt.Proper

variable {name keyword : Token} {value condition : Expr} {optional : Option Expr}
variable {body consequent : Stmt} {statements : List Stmt}

theorem expression (proper : (expression value).Proper own) : value.Proper own :=
  ⟨proper.shape, proper.known⟩

theorem declare (proper : (declare name optional).Proper own) :
    own name ∧ ∀ value ∈ optional, value.Proper own := by
  obtain ⟨shape, known⟩ := proper
  simp only [wellShaped, Bool.and_eq_true] at shape
  simp only [tokens, List.forall_mem_cons] at known
  exact ⟨known.1, optional_proper shape.2 known.2⟩

theorem ret (proper : (ret keyword optional).Proper own) : ∀ value ∈ optional, value.Proper own :=
  optional_proper proper.shape (List.forall_mem_cons.1 proper.known).2

theorem all (shape : allWellShaped statements = true)
    (known : ∀ token ∈ allTokens statements, own token) :
    ∀ statement ∈ statements, statement.Proper own := by
  intro statement member
  refine ⟨(allWellShaped_iff _).1 shape statement member, ?_⟩
  exact fun token inside => known token ((mem_allTokens _).2 ⟨statement, member, inside⟩)

theorem block (proper : (block statements).Proper own) :
    ∀ statement ∈ statements, statement.Proper own :=
  all proper.shape proper.known

theorem function {parameters : List Token} (proper : (function name parameters statements).Proper own) :
    own name ∧ (∀ parameter ∈ parameters, own parameter) ∧
      ∀ statement ∈ statements, statement.Proper own := by
  obtain ⟨shape, known⟩ := proper
  simp only [wellShaped, Bool.and_eq_true] at shape
  simp only [tokens, List.forall_mem_append, List.forall_mem_cons] at known
  exact ⟨known.1, known.2.1, all shape.2 known.2.2⟩

theorem loop (proper : (loop condition body).Proper own) :
    condition.Proper own ∧ body.Proper own := by
  obtain ⟨shape, known⟩ := proper
  simp only [wellShaped, Bool.and_eq_true] at shape
  simp only [tokens, List.forall_mem_append] at known
  exact ⟨⟨shape.1.1, known.1⟩, shape.2, known.2⟩

theorem branch {alternative : Option Stmt}
    (proper : (branch condition consequent alternative).Proper own) :
    condition.Proper own ∧ consequent.Proper own ∧ ∀ last ∈ alternative, last.Proper own := by
  obtain ⟨shape, known⟩ := proper
  cases alternative with
  | none =>
    simp only [wellShaped, Bool.and_eq_true] at shape
    simp only [tokens, List.forall_mem_append] at known
    exact ⟨⟨shape.1.1, known.1⟩, ⟨shape.2, known.2⟩, by simp⟩
  | some last =>
    simp only [wellShaped, Bool.and_eq_true] at shape
    simp only [tokens, List.forall_mem_append] at known
    refine ⟨⟨shape.1.1.1.1.1, known.1⟩, ⟨shape.1.1.2, known.2.1⟩, ?_⟩
    simpa using Stmt.Proper.mk shape.2 known.2.2

end Stmt.Proper

/-- A function is as proper as its declaration; everything else is proper. -/
def Value.Proper (own : Token → Prop) : Value → Prop
  | .callable ⟨_, .declared function⟩ =>
    (Stmt.function function.name function.parameters function.body).Proper own
  | _ => True

def Scope.Proper (own : Token → Prop) (scope : Scope) : Prop :=
  ∀ binding ∈ scope.bindings, binding.2.Proper own

/-- All values on the heap are proper. -/
def Heap.Proper (own : Token → Prop) (heap : Heap) : Prop :=
  ∀ (id : ScopeId) (scope : Scope), heap.scopes[id]? = some scope → scope.Proper own

theorem Value.IsPlain.proper {value : Value} (plain : value.IsPlain) : value.Proper own := by
  cases value with
  | callable callable => exact plain.elim
  | _ => trivial

theorem Scope.Proper.insert {scope : Scope} (proper : scope.Proper own) (name : String) {value : Value}
    (given : value.Proper own) : (scope.insert name value).Proper own :=
  Scope.Stores.insert proper name given

theorem Scope.Proper.update {scope : Scope} (proper : scope.Proper own) (name : String) {value : Value}
    (given : value.Proper own) : (scope.update name value).Proper own :=
  Scope.Stores.update proper name given

namespace Heap.Proper

variable {heap : Heap} (proper : heap.Proper own)
include proper

theorem modify (id : ScopeId) {change : Scope → Scope}
    (keeps : ∀ scope : Scope, scope.Proper own → (change scope).Proper own) :
    (heap.modify id change).Proper own :=
  Heap.Stores.modify proper id keeps

theorem addScope (enclosing : Option ScopeId) : (heap.addScope enclosing).2.Proper own :=
  Heap.Stores.addScope proper enclosing

theorem bound {id : ScopeId} {name : String} {value : Value}
    (found : heap.local? id name = some value) : value.Proper own :=
  Heap.Stores.bound proper found

end Heap.Proper

/-- A fresh machine knows only native functions. -/
theorem Machine.start_proper (readings : Nat → Int64) : (Machine.start readings).heap.Proper own :=
  Machine.start_stores readings fun _ _ => trivial

end TinyScript
