import TinyScript.Proofs.Trace

/-! The conduct of runs: what code is held to while it runs, from one state of affairs to the next. A
conduct tells which values may go around, which scopes code may run in, where it may declare names and
when a computation holds to all this. If the steps of evaluation hold to it, and so does what is put
together from computations that do, then all evaluation does. Regimes of heaps, runs of proper code and
registers of callables are such conducts; the induction over evaluation is made here once for them. -/
namespace TinyScript

/-- Sorts of expressions and statements that parts of such code belong to as well, and a sort of tokens
that their errors stand at. -/
structure Code where
  token : Token → Prop
  expression : Expr → Prop
  statement : Stmt → Prop
  grouping {inner : Expr} : expression (.grouping inner) → expression inner
  unary {operator : Token} {right : Expr} :
    expression (.unary operator right) → token operator ∧ expression right
  binary {left right : Expr} {operator : Token} :
    expression (.binary left operator right) → expression left ∧ expression right
  logical {left right : Expr} {operator : Token} :
    expression (.logical left operator right) → expression left ∧ expression right
  var {name : Token} : expression (.var name) → token name
  assign {name : Token} {value : Expr} :
    expression (.assign name value) → token name ∧ expression value
  call {callee : Expr} {paren : Token} {arguments : List Expr} :
    expression (.call callee paren arguments) →
      expression callee ∧ token paren ∧ ∀ argument ∈ arguments, expression argument
  increment {name sign : Token} : expression (.increment name sign) → token name ∧ token sign
  value {value : Expr} : statement (.expression value) → expression value
  declare {name : Token} {initializer : Option Expr} :
    statement (.declare name initializer) → token name ∧ ∀ value ∈ initializer, expression value
  block {statements : List Stmt} :
    statement (.block statements) → ∀ inner ∈ statements, statement inner
  branch {condition : Expr} {consequent : Stmt} {alternative : Option Stmt} :
    statement (.branch condition consequent alternative) →
      expression condition ∧ statement consequent ∧ ∀ other ∈ alternative, statement other
  loop {condition : Expr} {body : Stmt} :
    statement (.loop condition body) → expression condition ∧ statement body
  function {name : Token} {parameters : List Token} {body : List Stmt} :
    statement (.function name parameters body) →
      token name ∧ (∀ parameter ∈ parameters, token parameter) ∧ ∀ inner ∈ body, statement inner
  ret {keyword : Token} {value : Option Expr} :
    statement (.ret keyword value) → ∀ given ∈ value, expression given

/-- Code of any sort. -/
def Code.all : Code where
  token _ := True
  expression _ := True
  statement _ := True
  grouping _ := trivial
  unary _ := ⟨trivial, trivial⟩
  binary _ := ⟨trivial, trivial⟩
  logical _ := ⟨trivial, trivial⟩
  var _ := trivial
  assign _ := ⟨trivial, trivial⟩
  call _ := ⟨trivial, trivial, fun _ _ => trivial⟩
  increment _ := ⟨trivial, trivial⟩
  value _ := trivial
  declare _ := ⟨trivial, fun _ _ => trivial⟩
  block _ _ _ := trivial
  branch _ := ⟨trivial, trivial, fun _ _ => trivial⟩
  loop _ := ⟨trivial, trivial⟩
  function _ := ⟨trivial, fun _ _ => trivial, fun _ _ => trivial⟩
  ret _ _ _ := trivial

/-- The function's declaration. -/
def Function.declaration (function : Function) : Stmt :=
  .function function.name function.parameters function.body

/-- A flow passes on no value, or one of the given sort. -/
def Flow.Passes (fine : Value → Prop) : Flow → Prop
  | .normal => True
  | .returned value => fine value

/-- The statement declares no name in the scope it runs in. -/
def Stmt.declaresNone : Stmt → Bool
  | .declare .. | .function .. => false
  | .branch _ consequent none => consequent.declaresNone
  | .branch _ consequent (some alternative) => consequent.declaresNone && alternative.declaresNone
  | .loop _ body => body.declaresNone
  | .expression _ | .block _ | .ret .. => true

theorem Stmt.declaresNone_branch {condition : Expr} {consequent : Stmt} {alternative : Option Stmt}
    (silent : (branch condition consequent alternative).declaresNone = true) :
    consequent.declaresNone = true ∧
      ∀ other, alternative = some other → other.declaresNone = true := by
  cases alternative with
  | none => exact ⟨silent, nofun⟩
  | some other =>
    obtain ⟨first, second⟩ := Bool.and_eq_true_iff.1 silent
    exact ⟨first, fun _ same => Option.some.inj same ▸ second⟩

/-- No condition on what a computation gives. -/
abbrev anything {World α : Type} (_ : World) (_ : α) : Prop := True

/-- A conduct of code of some sort, with the steps and ways of putting computations together that hold
to it. What a computation gives is judged by the world it leaves, which is later than the one it
started in. -/
structure Conduct (code : Code) where
  World : Type
  later : World → World → Prop
  admits : World → Value → Prop
  enters : World → ScopeId → Prop
  /-- Scopes just made, which names may be declared in. -/
  opened : World → ScopeId → Prop
  /-- Names may be declared in the current scope. -/
  declares : World → Prop
  holds : {α : Type} → (World → α → Prop) → World → Traced α → Prop
  admits_later {world next : World} {value : Value} :
    later world next → admits world value → admits next value
  opened_later {world next : World} {scope : ScopeId} :
    later world next → opened world scope → opened next scope
  declares_later {world next : World} : later world next → declares world → declares next
  primitive {world : World} (primitive : Primitive) : admits world (.ofPrimitive primitive)
  closure {world : World} {identity : Nat} {function : Function} :
    admits world (.callable ⟨identity, .declared function⟩) →
      enters world function.closure ∧ code.statement function.declaration
  pure {α : Type} {fine : World → α → Prop} {world : World} {value : α} :
    fine world value → holds fine world (pure value)
  bind {α β : Type} {fine : World → α → Prop} {good : World → β → Prop} {world : World}
    {first : Traced α} {next : α → Traced β} : holds fine world first →
      (∀ reached value, later world reached → fine reached value → holds good reached (next value)) →
        holds good world (first >>= next)
  inScope {world : World} {scope : ScopeId} {body : Traced Flow} : opened world scope →
    (∀ inside, declares inside → holds (fun world => Flow.Passes (admits world)) inside body) →
      holds (fun world => Flow.Passes (admits world)) world (body.inScope scope)
  nested {world : World} {paren : Token} {body : Traced Value} : code.token paren →
    (∀ inside, (∀ value, admits world value → admits inside value) → holds admits inside body) →
      holds admits world (body.nested paren)
  exhausted {α : Type} {fine : World → α → Prop} {world : World} :
    holds fine world (Traced.step Run.exhausted)
  fail {α : Type} {fine : World → α → Prop} {world : World} {cause : RuntimeCause} {token : Token} :
    code.token token → cause ≠ .operandsMustBeNumbers →
      holds fine world (Traced.step (Run.fail cause token))
  sign {world : World} {operator : Token} {value : Value} : code.token operator →
    holds admits world (Traced.step (Run.ofExcept (applySign operator value)))
  counted {world : World} {sign : Token} {value : Int64} : code.token sign →
    holds admits world (Traced.step (Run.ofExcept (stepped sign value)))
  apply {world : World} {first second : Expr} {operator : Token} {left right : Value} :
    code.expression (.binary first operator second) →
      holds admits world (Traced.apply ⟨first, operator, second, left, right⟩)
  lookup {world : World} {name : Token} : code.token name →
    holds admits world (Traced.step (Run.lookup name))
  assign {world : World} {name : Token} {value : Value} : code.token name → admits world value →
    holds anything world (Traced.step (Run.assign name value))
  define {world : World} {name : Token} {value : Value} : code.token name → declares world →
    admits world value → holds anything world (Traced.step (Run.define name value))
  defineIn {world : World} {scope : ScopeId} {name : Token} {value : Value} : code.token name →
    opened world scope → admits world value →
      holds anything world (Traced.step (Run.defineIn scope name value))
  currentScope {world : World} : holds enters world (Traced.step Run.currentScope)
  newScope {world : World} {enclosing : ScopeId} : enters world enclosing →
    holds opened world (Traced.step (Run.newScope enclosing))
  newCallable {world : World} {function : Function} : enters world function.closure →
    code.statement function.declaration →
      holds (fun world callable => admits world (.callable callable)) world
        (Traced.step (Run.newCallable (.declared function)))
  native {world : World} {builtin : Native} {arguments : List Value} {paren : Token} :
    code.token paren → holds admits world (Traced.step (callNative builtin arguments paren))

namespace Conduct

variable {code : Code} (conduct : Conduct code)

/-- The flows that may go around. -/
abbrev flows (world : conduct.World) : Flow → Prop := Flow.Passes (conduct.admits world)

/-- The statement may run there: if names may not be declared, it must not declare any. -/
def Allows (world : conduct.World) (statement : Stmt) : Prop :=
  statement.declaresNone = true ∨ conduct.declares world

variable {conduct} {world : conduct.World}

theorem Allows.later {next : conduct.World} (later : conduct.later world next) {statement : Stmt}
    (allowed : conduct.Allows world statement) : conduct.Allows next statement :=
  allowed.imp_right (conduct.declares_later later)

theorem Allows.branch {condition : Expr} {consequent : Stmt} {alternative : Option Stmt}
    (allowed : conduct.Allows world (.branch condition consequent alternative)) :
    conduct.Allows world consequent ∧
      ∀ other, alternative = some other → conduct.Allows world other :=
  ⟨allowed.imp_left fun silent => (Stmt.declaresNone_branch silent).1,
    fun other same => allowed.imp_left fun silent => (Stmt.declaresNone_branch silent).2 other same⟩

theorem collect {compute : Expr → Traced Value}
    (each : ∀ expression, code.expression expression →
      ∀ world, conduct.holds conduct.admits world (compute expression))
    {expressions : List Expr} (listed : ∀ expression ∈ expressions, code.expression expression) :
    conduct.holds (fun world values => ∀ value ∈ values, conduct.admits world value) world
      (Traced.collect compute expressions) := by
  induction expressions generalizing world with
  | nil => exact conduct.pure (by simp)
  | cons first others ih =>
    obtain ⟨head, tail⟩ := List.forall_mem_cons.1 listed
    apply conduct.bind (each first head world)
    intro reached value _ given
    apply conduct.bind (ih tail)
    intro last values later all
    exact conduct.pure (List.forall_mem_cons.2 ⟨conduct.admits_later later given, all⟩)

theorem bindParameters {scope : ScopeId} {bindings : List (Token × Value)}
    (opened : conduct.opened world scope)
    (given : ∀ binding ∈ bindings, code.token binding.1 ∧ conduct.admits world binding.2) :
    conduct.holds anything world (Traced.bindParameters scope bindings) := by
  induction bindings generalizing world with
  | nil => exact conduct.pure trivial
  | cons binding others ih =>
    obtain ⟨head, tail⟩ := List.forall_mem_cons.1 given
    apply conduct.bind (conduct.defineIn head.1 opened head.2)
    intro reached _ later _
    refine ih (conduct.opened_later later opened) fun other member => ?_
    exact ⟨(tail other member).1, conduct.admits_later later (tail other member).2⟩

section Statements

variable {run : Stmt → Traced Flow}
variable (each : ∀ statement, code.statement statement → ∀ world,
  conduct.Allows world statement → conduct.holds conduct.flows world (run statement))
include each

theorem sequence {statements : List Stmt}
    (listed : ∀ statement ∈ statements, code.statement statement)
    (allowed : ∀ statement ∈ statements, conduct.Allows world statement) :
    conduct.holds conduct.flows world (Traced.sequence run statements) := by
  induction statements generalizing world with
  | nil => exact conduct.pure trivial
  | cons first others ih =>
    obtain ⟨head, tail⟩ := List.forall_mem_cons.1 listed
    obtain ⟨here, behind⟩ := List.forall_mem_cons.1 allowed
    apply conduct.bind (each first head world here)
    intro reached flow later given
    cases flow with
    | normal => exact ih tail fun statement member => (behind statement member).later later
    | returned value => exact conduct.pure given

/-- Statements in a scope just made may declare their names there. -/
theorem sequence_inScope {scope : ScopeId} {statements : List Stmt}
    (opened : conduct.opened world scope)
    (listed : ∀ statement ∈ statements, code.statement statement) :
    conduct.holds conduct.flows world (Traced.inScope scope (Traced.sequence run statements)) := by
  apply conduct.inScope opened
  intro inside declares
  exact sequence each listed fun _ _ => .inr declares

theorem block {enclosing : ScopeId} {statements : List Stmt}
    (entered : conduct.enters world enclosing)
    (listed : ∀ statement ∈ statements, code.statement statement) :
    conduct.holds conduct.flows world (Traced.block run enclosing statements) := by
  apply conduct.bind (conduct.newScope entered)
  intro reached scope _ opened
  exact sequence_inScope each opened listed

theorem callFunction {function : Function} {arguments : List Value}
    (declared : code.statement function.declaration)
    (entered : conduct.enters world function.closure)
    (given : ∀ value ∈ arguments, conduct.admits world value) :
    conduct.holds conduct.admits world (Traced.callFunction run function arguments) := by
  obtain ⟨_, parameters, body⟩ := code.function declared
  apply conduct.bind (conduct.newScope entered)
  intro ready scope later opened
  have bindings : ∀ binding ∈ function.parameters.zip arguments,
      code.token binding.1 ∧ conduct.admits ready binding.2 := by
    intro binding member
    obtain ⟨parameter, argument⟩ := List.of_mem_zip member
    exact ⟨parameters _ parameter, conduct.admits_later later (given _ argument)⟩
  apply conduct.bind (conduct.bindParameters opened bindings)
  intro bound _ further _
  apply conduct.bind (sequence_inScope each (conduct.opened_later further opened) body)
  intro last flow _ result
  cases flow with
  | normal => exact conduct.pure (conduct.primitive .nil)
  | returned value => exact conduct.pure result

theorem routine {identity : Nat} {routine : Routine} {arguments : List Value} {paren : Token}
    (place : code.token paren) (callee : conduct.admits world (.callable ⟨identity, routine⟩))
    (given : ∀ value ∈ arguments, conduct.admits world value) :
    conduct.holds conduct.admits world (Traced.routine run arguments paren routine) := by
  cases routine with
  | builtIn builtin => exact conduct.native place
  | declared function =>
    obtain ⟨entered, declared⟩ := conduct.closure callee
    exact callFunction each declared entered given

theorem call {callee : Value} {arguments : List Value} {paren : Token} (place : code.token paren)
    (called : conduct.admits world callee)
    (given : ∀ value ∈ arguments, conduct.admits world value) :
    conduct.holds conduct.admits world (Traced.call run callee arguments paren) := by
  cases callee with
  | callable callable =>
    have entered : conduct.holds conduct.admits world
        (Traced.nested paren (Traced.routine run arguments paren callable.routine)) := by
      apply conduct.nested place
      intro inside keeps
      exact routine each place (keeps _ called) fun value member => keeps value (given value member)
    simp only [Traced.call]
    cases callable.routine.arity with
    | variadic => exact entered
    | fixed expected =>
      by_cases fits : arguments.length = expected
      · simpa only [fits, if_true] using entered
      · simpa only [fits, if_false] using conduct.fail place (by simp)
  | _ => exact conduct.fail place (by simp)

end Statements

section Levels

variable {fuel : Nat}
variable (values : ∀ expression, code.expression expression →
  ∀ world, conduct.holds conduct.admits world (Traced.evaluate fuel expression))
variable (flows : ∀ statement, code.statement statement → ∀ world,
  conduct.Allows world statement →
    conduct.holds conduct.flows world (Traced.execute fuel statement))
include values flows

theorem evaluate_succ {expression : Expr} (listed : code.expression expression) :
    conduct.holds conduct.admits world (Traced.evaluate (fuel + 1) expression) := by
  cases expression with
  | literal value => exact conduct.pure (conduct.primitive value)
  | grouping inner => exact values inner (code.grouping listed) world
  | unary operator right =>
    obtain ⟨place, inner⟩ := code.unary listed
    apply conduct.bind (values right inner world)
    intro reached right _ _
    exact conduct.sign place
  | binary first operator second =>
    obtain ⟨leftward, rightward⟩ := code.binary listed
    apply conduct.bind (values first leftward world)
    intro between left _ _
    apply conduct.bind (values second rightward between)
    intro reached right _ _
    exact conduct.apply listed
  | logical left operator right =>
    obtain ⟨leftward, rightward⟩ := code.logical listed
    apply conduct.bind (values left leftward world)
    intro reached left _ given
    by_cases settled : settles operator left
    · simpa only [settled, if_true] using conduct.pure given
    · simpa only [settled, Bool.false_eq_true, if_false] using values right rightward reached
  | var name => exact conduct.lookup (code.var listed)
  | assign name value =>
    obtain ⟨place, inner⟩ := code.assign listed
    apply conduct.bind (values value inner world)
    intro between value _ given
    apply conduct.bind (conduct.assign place given)
    intro reached _ later _
    exact conduct.pure (conduct.admits_later later given)
  | call callee paren arguments =>
    obtain ⟨called, place, all⟩ := code.call listed
    apply conduct.bind (values callee called world)
    intro between callee _ function
    apply conduct.bind (collect values all)
    intro ready arguments later given
    exact call flows place (conduct.admits_later later function) given
  | increment name sign =>
    obtain ⟨place, mark⟩ := code.increment listed
    apply conduct.bind (conduct.lookup place)
    intro between value _ _
    cases value with
    | int value =>
      apply conduct.bind (conduct.counted mark)
      intro reached value _ given
      apply conduct.bind (conduct.assign place given)
      intro last _ later _
      exact conduct.pure (conduct.admits_later later given)
    | _ => exact conduct.fail mark (by simp)

theorem execute_succ {statement : Stmt} (listed : code.statement statement)
    (allowed : conduct.Allows world statement) :
    conduct.holds conduct.flows world (Traced.execute (fuel + 1) statement) := by
  cases statement with
  | expression value =>
    apply conduct.bind (values value (code.value listed) world)
    intro reached _ _ _
    exact conduct.pure trivial
  | declare name initializer =>
    obtain ⟨place, initial⟩ := code.declare listed
    have declared (reached : conduct.World) (value : Value) (later : conduct.later world reached)
        (given : conduct.admits reached value) : conduct.holds conduct.flows reached
        (Traced.step (Run.define name value) >>= fun _ => Pure.pure Flow.normal) := by
      apply conduct.bind (conduct.define place ((allowed.later later).resolve_left nofun) given)
      intro last _ _ _
      exact conduct.pure trivial
    cases initializer with
    | some initializer =>
      exact conduct.bind (values initializer (initial initializer rfl) world) declared
    | none => exact conduct.bind (conduct.pure (conduct.primitive .nil)) declared
  | block statements =>
    apply conduct.bind conduct.currentScope
    intro reached enclosing _ entered
    exact block flows entered (code.block listed)
  | branch condition consequent alternative =>
    obtain ⟨tested, first, last⟩ := code.branch listed
    apply conduct.bind (values condition tested world)
    intro reached value later _
    obtain ⟨here, there⟩ := (allowed.later later).branch
    by_cases truthy : value.isTruthy
    · simpa only [truthy, if_true] using flows consequent first reached here
    · simp only [truthy]
      cases alternative with
      | some alternative =>
        exact flows alternative (last alternative rfl) reached (there alternative rfl)
      | none => exact conduct.pure trivial
  | loop condition body =>
    obtain ⟨tested, inner⟩ := code.loop listed
    apply conduct.bind (values condition tested world)
    intro between value later _
    by_cases truthy : value.isTruthy
    · simp only [truthy, if_true]
      apply conduct.bind (flows body inner between (allowed.later later))
      intro reached flow further given
      cases flow with
      | normal =>
        exact flows (.loop condition body) listed reached ((allowed.later later).later further)
      | returned value => exact conduct.pure given
    · simp only [truthy]
      exact conduct.pure trivial
  | function name parameters body =>
    obtain ⟨place, _⟩ := code.function listed
    apply conduct.bind conduct.currentScope
    intro between closure later entered
    have declared : code.statement
        (Function.declaration { name, parameters, body, closure }) := listed
    apply conduct.bind (conduct.newCallable entered declared)
    intro reached callable further given
    have declares := ((allowed.later later).later further).resolve_left nofun
    apply conduct.bind (conduct.define place declares given)
    intro last _ _ _
    exact conduct.pure trivial
  | ret keyword value =>
    cases value with
    | some value =>
      apply conduct.bind (values value (code.ret listed value rfl) world)
      intro reached value _ given
      exact conduct.pure given
    | none => exact conduct.pure (conduct.primitive .nil)

end Levels

/-- All evaluation holds to the conduct, however deep it nests. -/
theorem evaluation (conduct : Conduct code) (fuel : Nat) :
    (∀ expression, code.expression expression →
      ∀ world, conduct.holds conduct.admits world (Traced.evaluate fuel expression)) ∧
    ∀ statement, code.statement statement → ∀ world, conduct.Allows world statement →
      conduct.holds conduct.flows world (Traced.execute fuel statement) := by
  induction fuel with
  | zero => exact ⟨fun _ _ _ => conduct.exhausted, fun _ _ _ _ => conduct.exhausted⟩
  | succ fuel ih =>
    obtain ⟨values, flows⟩ := ih
    exact ⟨fun _ listed _ => evaluate_succ values flows listed,
      fun _ listed _ => execute_succ values flows listed⟩

theorem interpret (conduct : Conduct code) (fuel : Nat) {statements : List Stmt}
    (listed : ∀ statement ∈ statements, code.statement statement) (world : conduct.World)
    (declares : conduct.declares world) :
    conduct.holds anything world (Traced.interpret fuel statements) := by
  apply conduct.bind (sequence (conduct.evaluation fuel).2 listed fun _ _ => .inr declares)
  intro reached _ _ _
  exact conduct.pure trivial

end Conduct

end TinyScript
