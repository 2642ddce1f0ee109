import TinyScript.Proofs.PaddedStep

/-! Runs beside padding. A program run on a padded machine does what it does on the plain one: it gives
the values that stand for each other, fails with the same errors, prints the same, and leaves the one
heap padded as compared with the other. Only a name may not be declared in padding, so code that runs
there must declare none itself. -/
namespace TinyScript

namespace Padding

variable {padding after : Padding} {padded plain reached other : Machine}

/-- The statement may run where the machine is: in padding it must not declare a name. -/
abbrev Permits (padding : Padding) (padded : Machine) (statement : Stmt) : Prop :=
  statement.declaresNone = true ∨ padding.IsOwn padded.scope

theorem Leads.permits (leads : padding.Leads padded plain after reached other)
    (joined : padded.Padded padding plain) {statement : Stmt}
    (permitted : padding.Permits padded statement) : after.Permits reached statement :=
  permitted.imp_right (leads.isOwn_scope joined)

namespace Alike

/-- What the one run does on a padded machine, the other does on the plain one. -/
abbrev Beside {α β : Type} (values : Padding → Heap → α → β → Prop) (run : Run α) (same : Run β) :
    Prop :=
  ∀ ⦃padding : Padding⦄ ⦃padded plain : Machine⦄, padded.Padded padding plain →
    padding.Alike values padded plain (run padded) (same plain)

theorem collect {compute : Expr → Run Value}
    (each : ∀ expression, Beside Value.Stands (compute expression) (compute expression))
    (joined : padded.Padded padding plain) (expressions : List Expr) :
    padding.Alike valuesStand padded plain (Run.collect compute expressions padded)
      (Run.collect compute expressions plain) := by
  induction expressions generalizing padding padded plain with
  | nil => exact pure joined .nil
  | cons first others ih =>
    apply bind (each first joined)
    intro after reached other value same leads stands
    apply bind (ih leads.joined)
    intro last furthest further values others more stand
    exact pure more.joined (.cons (more.valueStands stands) stand)

theorem bindParameters (joined : padded.Padded padding plain) {scope place : ScopeId}
    (stands : padding.Stands padded.heap scope place) (own : padding.IsOwn scope)
    (parameters : List Token) {arguments others : List Value}
    (given : padding.valuesStand padded.heap arguments others) :
    padding.Alike equal padded plain
      (Run.bindParameters scope (parameters.zip arguments) padded)
      (Run.bindParameters place (parameters.zip others) plain) := by
  induction parameters generalizing padding padded plain arguments others with
  | nil => exact pure joined rfl
  | cons parameter more ih =>
    cases given with
    | nil => exact pure joined rfl
    | cons first rest =>
      apply bind (defineIn joined stands own parameter first)
      intro after reached other _ _ leads _
      exact ih leads.joined (leads.scopeStands stands) (leads.isOwn joined stands.present own)
        (leads.valuesStand rest)

/-- What statements do on a padded machine and on the plain one, where they may run. -/
abbrev Wherever (execute : Stmt → Run Flow) : Prop :=
  ∀ statement ⦃padding : Padding⦄ ⦃padded plain : Machine⦄, padded.Padded padding plain →
    padding.Permits padded statement →
      padding.Alike Flow.Stands padded plain (execute statement padded) (execute statement plain)

section Statements

variable {execute : Stmt → Run Flow} (each : Wherever execute)
include each

theorem sequence (joined : padded.Padded padding plain) {statements : List Stmt}
    (permitted : ∀ statement ∈ statements, padding.Permits padded statement) :
    padding.Alike Flow.Stands padded plain (Run.sequence execute statements padded)
      (Run.sequence execute statements plain) := by
  induction statements generalizing padding padded plain with
  | nil => exact pure joined .normal
  | cons first others ih =>
    apply bind (each first joined (permitted first (by simp)))
    intro after reached other flow same leads stands
    cases stands with
    | normal =>
      apply ih leads.joined
      intro statement member
      exact leads.permits joined (permitted statement (by simp [member]))
    | returned stands => exact pure leads.joined (.returned stands)

/-- In a new scope of both machines all statements may run. -/
theorem inside (joined : padded.Padded padding plain) {scope place : ScopeId}
    (stands : padding.Stands padded.heap scope place) (own : padding.IsOwn scope)
    (statements : List Stmt) :
    padding.Alike Flow.Stands padded plain
      (Run.inScope scope (Run.sequence execute statements) padded)
      (Run.inScope place (Run.sequence execute statements) plain) :=
  inScope joined (sequence each (joined.withScope stands) fun _ _ => .inr own)

theorem block (joined : padded.Padded padding plain) {enclosing around : ScopeId}
    (stands : padding.Stands padded.heap enclosing around) (statements : List Stmt) :
    padding.Alike Flow.Stands padded plain (Run.block execute enclosing statements padded)
      (Run.block execute around statements plain) := by
  apply bind (newScope joined stands)
  rintro after reached other scope place leads ⟨opened, own⟩
  exact inside each leads.joined opened own statements

theorem callFunction (joined : padded.Padded padding plain) (function : Function)
    (present : function.closure < padded.heap.scopes.size) {arguments others : List Value}
    (given : padding.valuesStand padded.heap arguments others) :
    padding.Alike Value.Stands padded plain (Run.callFunction execute function arguments padded)
      (Run.callFunction execute { function with closure := padding.stands function.closure } others
        plain) := by
  apply bind (newScope joined ⟨present, rfl⟩)
  rintro after reached other scope place leads ⟨opened, own⟩
  apply bind (bindParameters leads.joined opened own function.parameters (leads.valuesStand given))
  intro last ready same _ _ further _
  have still := further.isOwn leads.joined opened.present own
  apply bind (inside each further.joined (further.scopeStands opened) still function.body)
  intro _ _ _ flow _ onwards stands
  cases stands with
  | normal => exact pure onwards.joined ⟨nofun, rfl⟩
  | returned stands => exact pure onwards.joined stands

theorem call (joined : padded.Padded padding plain) {callee called : Value}
    (stands : callee.Stands padding padded.heap called) {arguments others : List Value}
    (given : padding.valuesStand padded.heap arguments others) (paren : Token) :
    padding.Alike Value.Stands padded plain (Run.call execute callee arguments paren padded)
      (Run.call execute called others paren plain) := by
  obtain ⟨carries, rfl⟩ := stands
  have many := given.length_eq
  have deeper := joined.withDepth (congrArg (· + 1) joined.depth)
  match callee with
  | .callable ⟨identity, .declared function⟩ =>
    have entered := nested joined paren
      (callFunction each deeper function (carries _ rfl) given)
    simp only [Value.renumber, Run.call_callable, Routine.arity, many]
    split
    · exact entered
    · exact failed joined _
  | .callable ⟨identity, .builtIn builtin⟩ =>
    have entered := nested joined paren (callNative deeper builtin given paren)
    simp only [Value.renumber, Run.call_callable, Routine.arity, many]
    cases builtin.arity with
    | variadic => exact entered
    | fixed expected =>
      dsimp only
      split
      · exact entered
      · exact failed joined _
  | .nil | .bool _ | .int _ | .string _ | .bytes _ => exact failed joined _

end Statements

section Levels

variable {fuel : Nat}
variable (values : ∀ expression,
  Beside Value.Stands (evaluate fuel expression) (evaluate fuel expression))
variable (flows : Wherever (execute fuel))
include values flows

theorem evaluate_succ (expression : Expr) :
    Beside Value.Stands (evaluate (fuel + 1) expression) (evaluate (fuel + 1) expression) := by
  intro padding padded plain joined
  cases expression with
  | literal value =>
    have isPlain := Value.isPlain_ofPrimitive value
    exact pure joined ⟨Regime.grounded.plain isPlain, (Value.renumber_of_isPlain isPlain).symm⟩
  | grouping inner => exact values inner joined
  | unary operator right =>
    apply bind (values right joined)
    rintro after reached other right _ leads ⟨_, rfl⟩
    rw [Value.applySign_renumber]
    exact ofExcept leads.joined fun _ => isPlain_of_applySign
  | binary left operator right =>
    apply bind (values left joined)
    intro after reached other left _ leads first
    apply bind (values right leads.joined)
    rintro last furthest further right _ onwards ⟨_, rfl⟩
    obtain ⟨_, rfl⟩ := onwards.valueStands first
    rw [Value.applyOperator_renumber]
    exact ofExcept onwards.joined fun _ => isPlain_of_applyOperator
  | logical left operator right =>
    apply bind (values left joined)
    rintro after reached other left _ leads ⟨carries, rfl⟩
    simp only [Value.settles_renumber]
    split
    · exact pure leads.joined ⟨carries, rfl⟩
    · exact values right leads.joined
  | var name => exact lookup joined name
  | assign name value =>
    apply bind (values value joined)
    intro after reached other value _ leads stands
    apply bind (assign leads.joined name stands)
    intro last furthest further _ _ onwards _
    exact pure onwards.joined (onwards.valueStands stands)
  | call callee paren arguments =>
    apply bind (values callee joined)
    intro after reached other callee _ leads called
    apply bind (collect values leads.joined arguments)
    intro last furthest further arguments _ onwards given
    exact call flows onwards.joined (onwards.valueStands called) given paren
  | increment name sign =>
    apply bind (lookup joined name)
    rintro after reached other value _ leads ⟨_, rfl⟩
    match value with
    | .int value =>
      apply bind (ofExcept leads.joined fun _ => isPlain_of_stepped)
      intro last furthest further value _ onwards stands
      apply bind (assign onwards.joined name stands)
      intro end' result same _ _ more _
      exact pure more.joined (more.valueStands stands)
    | .callable ⟨_, .declared _⟩ | .callable ⟨_, .builtIn _⟩ => exact failed leads.joined _
    | .nil | .bool _ | .string _ | .bytes _ => exact failed leads.joined _

theorem execute_succ : Wherever (execute (fuel + 1)) := by
  intro statement padding padded plain joined permitted
  cases statement with
  | expression value =>
    apply bind (values value joined)
    intro after reached other _ _ leads _
    exact pure leads.joined .normal
  | declare name initializer =>
    have own := permitted.resolve_left nofun
    cases initializer with
    | some initializer =>
      apply bind (values initializer joined)
      intro after reached other value same leads stands
      exact declared leads.joined (leads.isOwn_scope joined own) name stands
    | none => exact declared joined own name ⟨nofun, rfl⟩
  | block statements =>
    apply bind (currentScope joined)
    intro after reached other enclosing around leads stands
    exact block flows leads.joined stands statements
  | branch condition consequent alternative =>
    apply bind (values condition joined)
    rintro after reached other value _ leads ⟨_, rfl⟩
    have again := leads.permits joined permitted
    simp only [Value.isTruthy_renumber]
    split
    · exact flows consequent leads.joined (again.imp_left fun silent =>
        (Stmt.declaresNone_branch silent).1)
    · cases alternative with
      | some alternative =>
        exact flows alternative leads.joined (again.imp_left fun silent =>
          (Stmt.declaresNone_branch silent).2 alternative rfl)
      | none => exact pure leads.joined .normal
  | loop condition body =>
    apply bind (values condition joined)
    rintro after reached other value _ leads ⟨_, rfl⟩
    simp only [Value.isTruthy_renumber]
    split
    · have again := leads.permits joined permitted
      apply bind (flows body leads.joined again)
      intro last furthest further flow _ onwards stands
      cases stands with
      | normal => exact flows (.loop condition body) onwards.joined (onwards.permits leads.joined again)
      | returned stands => exact pure onwards.joined (.returned stands)
    · exact pure leads.joined .normal
  | function name parameters body =>
    apply bind (currentScope joined)
    intro after reached other closure place leads stands
    apply bind (newCallable leads.joined name parameters body stands)
    intro last furthest further callable _ onwards made
    have own := (leads.trans onwards).isOwn_scope joined (permitted.resolve_left nofun)
    exact declared onwards.joined own name made
  | ret keyword value =>
    cases value with
    | some value =>
      apply bind (values value joined)
      intro after reached other value _ leads stands
      exact pure leads.joined (.returned stands)
    | none => exact pure joined (.returned ⟨nofun, rfl⟩)

end Levels

/-- Code does the same on a padded machine as on the plain one, with the same number of steps. -/
theorem evaluation (fuel : Nat) :
    (∀ expression, Beside Value.Stands (evaluate fuel expression) (evaluate fuel expression)) ∧
      Wherever (execute fuel) := by
  induction fuel with
  | zero => exact ⟨fun _ _ _ _ joined => exhausted joined, fun _ _ _ _ joined _ => exhausted joined⟩
  | succ fuel ih =>
    obtain ⟨values, flows⟩ := ih
    exact ⟨evaluate_succ values flows, execute_succ values flows⟩

end Alike

end Padding

end TinyScript
