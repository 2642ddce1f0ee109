import TinyScript.Proofs.Padding

/-! Padded machines, step by step. Each computation that touches the machine gives values that stand
for each other or fails with the same error, and leaves the one heap padded as compared with the other;
which scopes are padding may change on the way, but never for scopes that are there already. -/
namespace TinyScript

/-- The padded machine is the plain one but for padding and numbers. -/
structure Machine.Padded (padding : Padding) (padded plain : Machine) : Prop where
  heap : padded.heap.Padded padding plain.heap
  grounded : Regime.grounded.Holds padded
  plainly : plain.heap.Grounded plain.globals
  scope : plain.scope = padding.stands padded.scope
  globals : plain.globals = padding.stands padded.globals
  depth : padded.depth = plain.depth
  output : padded.output = plain.output
  clock : padded.clock = plain.clock

/-- Both give values that belong together, or both fail with one error, or both run out of steps. -/
inductive Outcome.Same {α β : Type} (values : α → β → Prop) :
    Outcome RuntimeError α → Outcome RuntimeError β → Prop where
  | done {value : α} {other : β} (same : values value other) : Same values (.done value) (.done other)
  | failed (error : RuntimeError) : Same values (.failed error) (.failed error)
  | exhausted : Same values .exhausted .exhausted

/-- The value is one of the heap, and stands for the other. -/
structure Value.Stands (padding : Padding) (heap : Heap) (value other : Value) : Prop where
  carries : heap.Carries value
  renumbered : other = value.renumber padding.stands

/-- What stands for a value of the one heap is a value of the other. -/
theorem Value.Stands.carried {padding : Padding} {padded plain : Heap} {value other : Value}
    (stands : value.Stands padding padded other) (joined : padded.Padded padding plain) :
    plain.Carries other := by
  obtain ⟨carries, rfl⟩ := stands
  intro closure closes
  rw [value.closure?_renumber] at closes
  obtain ⟨scope, closed, rfl⟩ := Option.map_eq_some_iff.1 closes
  exact joined.stands_lt scope (carries scope closed)

/-- Values that stand for each other print the same. -/
theorem Value.texts_of_stand {padding : Padding} {heap : Heap} {values others : List Value}
    (stand : List.Forall₂ (Value.Stands padding heap) values others) :
    others.map Value.text = values.map Value.text := by
  induction stand with
  | nil => rfl
  | cons first _ ih => rw [List.map_cons, List.map_cons, first.renumbered, text_renumber, ih]

theorem Value.hexTexts_of_stand {padding : Padding} {heap : Heap} {values others : List Value}
    (stand : List.Forall₂ (Value.Stands padding heap) values others) :
    others.mapM Value.hexText? = values.mapM Value.hexText? := by
  induction stand with
  | nil => rfl
  | cons first _ ih => rw [List.mapM_cons, List.mapM_cons, first.renumbered, hexText?_renumber, ih]

inductive Flow.Stands (padding : Padding) (heap : Heap) : Flow → Flow → Prop where
  | normal : Stands padding heap .normal .normal
  | returned {value other : Value} (stands : value.Stands padding heap other) :
      Stands padding heap (.returned value) (.returned other)

namespace Padding

/-- The scope is one of the heap, and stands for the other. -/
structure Stands (padding : Padding) (heap : Heap) (scope other : ScopeId) : Prop where
  present : scope < heap.scopes.size
  renumbered : other = padding.stands scope

/-- From a padded machine and its plain one, two others are reached that are so again, in the scopes
where they started; scopes that were there stand for what they stood for. -/
structure Leads (padding : Padding) (padded plain : Machine) (after : Padding)
    (reached other : Machine) : Prop where
  joined : reached.Padded after other
  grows : padded.heap.Grows reached.heap
  others : plain.heap.Grows other.heap
  stands : ∀ id < padded.heap.scopes.size, after.stands id = padding.stands id
  own : ∀ id < plain.heap.scopes.size, after.own id = padding.own id
  scope : reached.scope = padded.scope

/-- The two runs end alike, and lead to a padded machine and its plain one. -/
def Alike {α β : Type} (values : Padding → Heap → α → β → Prop) (padding : Padding)
    (padded plain : Machine) (ended : Outcome RuntimeError α × Machine)
    (other : Outcome RuntimeError β × Machine) : Prop :=
  ∃ after, padding.Leads padded plain after ended.2 other.2 ∧
    ended.1.Same (values after ended.2.heap) other.1

/-- The values stand for the others, one by one. -/
abbrev valuesStand (padding : Padding) (heap : Heap) : List Value → List Value → Prop :=
  List.Forall₂ (Value.Stands padding heap)

/-- The same on both sides. -/
abbrev equal {α : Type} (_ : Padding) (_ : Heap) (value other : α) : Prop := value = other

end Padding

namespace Machine.Padded

variable {padding : Padding} {padded plain : Machine} (joined : padded.Padded padding plain)
include joined

theorem stands : padding.Stands padded.heap padded.scope plain.scope :=
  ⟨joined.grounded.scope, joined.scope⟩

theorem withScope {scope place : ScopeId} (stands : padding.Stands padded.heap scope place) :
    { padded with scope }.Padded padding { plain with scope := place } :=
  { joined with grounded := ⟨joined.grounded.heap, stands.present⟩, scope := stands.renumbered }

theorem withDepth {depth level : Nat} (same : depth = level) :
    { padded with depth }.Padded padding { plain with depth := level } :=
  { joined with grounded := ⟨joined.grounded.heap, joined.grounded.scope⟩, depth := same }

/-- A change of the heaps, if what was there stands for what it stood for. -/
theorem withHeap {after : Padding} {heap heap' : Heap} (same : heap.Padded after heap')
    (grows : padded.heap.Grows heap) (others : plain.heap.Grows heap')
    (grounded : heap.Grounded padded.globals) (plainly : heap'.Grounded plain.globals)
    (stands : ∀ id < padded.heap.scopes.size, after.stands id = padding.stands id)
    (own : ∀ id < plain.heap.scopes.size, after.own id = padding.own id) :
    padding.Leads padded plain after { padded with heap } { plain with heap := heap' } where
  joined := { joined with
    heap := same
    grounded := ⟨grounded, Nat.lt_of_lt_of_le joined.grounded.scope grows.scopes⟩
    plainly
    scope := joined.scope.trans (stands _ joined.grounded.scope).symm
    globals := joined.globals.trans (stands _ joined.grounded.heap.globals_lt).symm }
  grows := grows
  others := others
  stands := stands
  own := own
  scope := rfl

/-- The same change of one scope on both sides. -/
theorem modify {target place : ScopeId} (stands : padding.Stands padded.heap target place)
    (own : padding.IsOwn target) {change other : Scope → Scope}
    (alike : ∀ scope, (change scope).renumber padding.stands = other (scope.renumber padding.stands))
    (grounded : (padded.heap.modify target change).Grounded padded.globals)
    (plainly : (plain.heap.modify place other).Grounded plain.globals) :
    padding.Leads padded plain padding { padded with heap := padded.heap.modify target change }
      { plain with heap := plain.heap.modify place other } := by
  obtain ⟨_, rfl⟩ := stands
  exact joined.withHeap (joined.heap.modify own alike) (.modify ..) (.modify ..) grounded plainly
    (fun _ _ => rfl) fun _ _ => rfl

/-- A new scope of both machines. -/
theorem addScope {enclosing : ScopeId} (present : enclosing < padded.heap.scopes.size) :
    padding.Leads padded plain (padding.pair padded.heap.scopes.size plain.heap.scopes.size)
      { padded with heap := (padded.heap.addScope (some enclosing)).2 }
      { plain with heap := (plain.heap.addScope (some (padding.stands enclosing))).2 } :=
  joined.withHeap (joined.heap.addScope joined.grounded.heap present) (.addScope ..) (.addScope ..)
    (joined.grounded.heap.addScope present)
    (joined.plainly.addScope (joined.heap.stands_lt enclosing present))
    (fun _ old => if_neg (Nat.ne_of_lt old)) fun _ old => if_neg (Nat.ne_of_lt old)

/-- A new scope of the padded machine alone. -/
theorem addPadding :
    padding.Leads padded plain (padding.pad padded.heap.scopes.size padded.scope)
      { padded with heap := (padded.heap.addScope (some padded.scope)).2 } plain :=
  joined.withHeap (joined.heap.addPadding joined.grounded.heap joined.grounded.scope) (.addScope ..)
    (.refl _) (joined.grounded.heap.addScope joined.grounded.scope) joined.plainly
    (fun _ old => if_neg (Nat.ne_of_lt old)) fun _ _ => rfl

/-- The same change of what has been printed and of the clock. -/
theorem outside {output output' : String} {clock clock' : Clock} (printed : output = output')
    (looked : clock = clock') : padding.Leads padded plain padding { padded with output, clock }
      { plain with output := output', clock := clock' } where
  joined := { joined with
    grounded := ⟨joined.grounded.heap, joined.grounded.scope⟩, output := printed, clock := looked }
  grows := .refl _
  others := .refl _
  stands _ _ := rfl
  own _ _ := rfl
  scope := rfl

end Machine.Padded

namespace Padding

variable {padding after : Padding} {padded plain reached other : Machine}

namespace Leads

theorem refl (joined : padded.Padded padding plain) :
    padding.Leads padded plain padding padded plain :=
  ⟨joined, .refl _, .refl _, fun _ _ => rfl, fun _ _ => rfl, rfl⟩

theorem trans {last : Padding} {furthest further : Machine}
    (earlier : padding.Leads padded plain after reached other)
    (later : after.Leads reached other last furthest further) :
    padding.Leads padded plain last furthest further where
  joined := later.joined
  grows := earlier.grows.trans later.grows
  others := earlier.others.trans later.others
  stands id present :=
    (later.stands id (Nat.lt_of_lt_of_le present earlier.grows.scopes)).trans
      (earlier.stands id present)
  own id present :=
    (later.own id (Nat.lt_of_lt_of_le present earlier.others.scopes)).trans (earlier.own id present)
  scope := later.scope.trans earlier.scope

variable (leads : padding.Leads padded plain after reached other)
include leads

theorem scopeStands {scope place : ScopeId} (stands : padding.Stands padded.heap scope place) :
    after.Stands reached.heap scope place :=
  ⟨Nat.lt_of_lt_of_le stands.present leads.grows.scopes,
    stands.renumbered.trans (leads.stands scope stands.present).symm⟩

theorem valueStands {value same : Value} (stands : value.Stands padding padded.heap same) :
    value.Stands after reached.heap same := by
  refine ⟨leads.grows.carries stands.carries, stands.renumbered.trans ?_⟩
  apply Value.renumber_congr
  intro closure closes
  exact (leads.stands closure (stands.carries closure closes)).symm

theorem valuesStand {values same : List Value}
    (stand : List.Forall₂ (Value.Stands padding padded.heap) values same) :
    List.Forall₂ (Value.Stands after reached.heap) values same :=
  stand.imp fun _ _ => leads.valueStands

/-- Both machines are in the scopes they were in. -/
theorem place (joined : padded.Padded padding plain) : other.scope = plain.scope := by
  rw [leads.joined.scope, leads.scope, leads.stands padded.scope joined.grounded.scope, joined.scope]

theorem isOwn (joined : padded.Padded padding plain) {scope : ScopeId}
    (present : scope < padded.heap.scopes.size) (own : padding.IsOwn scope) : after.IsOwn scope := by
  rw [IsOwn, leads.stands scope present, leads.own _ (joined.heap.stands_lt scope present)]
  exact own

theorem isOwn_scope (joined : padded.Padded padding plain) (own : padding.IsOwn padded.scope) :
    after.IsOwn reached.scope := by
  rw [leads.scope]
  exact leads.isOwn joined joined.grounded.scope own

end Leads

namespace Alike

section Rules

variable {α β γ δ : Type} {values : Padding → Heap → α → β → Prop}
variable {results : Padding → Heap → γ → δ → Prop}

theorem done (leads : padding.Leads padded plain after reached other) {value : α} {same : β}
    (stands : values after reached.heap value same) :
    padding.Alike values padded plain (.done value, reached) (.done same, other) :=
  ⟨after, leads, .done stands⟩

theorem pure (joined : padded.Padded padding plain) {value : α} {same : β}
    (stands : values padding padded.heap value same) :
    padding.Alike values padded plain ((Pure.pure value : Run α) padded)
      ((Pure.pure same : Run β) plain) :=
  done (.refl joined) stands

theorem failed (joined : padded.Padded padding plain) (error : RuntimeError) :
    padding.Alike values padded plain (.failed error, padded) (.failed error, plain) :=
  ⟨padding, .refl joined, .failed error⟩

theorem exhausted (joined : padded.Padded padding plain) :
    padding.Alike values padded plain (.exhausted, padded) (.exhausted, plain) :=
  ⟨padding, .refl joined, .exhausted⟩

/-- What two runs do from machines that they were led to, they do from where they were led. -/
theorem onwards {ended : Outcome RuntimeError α × Machine} {same : Outcome RuntimeError β × Machine}
    (leads : padding.Leads padded plain after reached other)
    (alike : after.Alike values reached other ended same) :
    padding.Alike values padded plain ended same := by
  obtain ⟨last, further, outcomes⟩ := alike
  exact ⟨last, leads.trans further, outcomes⟩

theorem bind {run : Run α} {same : Run β} {rest : α → Run γ} {follows : β → Run δ}
    (first : padding.Alike values padded plain (run padded) (same plain))
    (next : ∀ after reached other value matching, padding.Leads padded plain after reached other →
      values after reached.heap value matching →
      after.Alike results reached other (rest value reached) (follows matching other)) :
    padding.Alike results padded plain ((run >>= rest) padded) ((same >>= follows) plain) := by
  obtain ⟨after, leads, outcomes⟩ := first
  change padding.Alike results padded plain (Run.bind run rest padded) (Run.bind same follows plain)
  unfold Run.bind
  revert leads outcomes
  generalize run padded = ended, same plain = ended'
  obtain ⟨outcome, reached⟩ := ended
  obtain ⟨outcome', other⟩ := ended'
  intro leads outcomes
  cases outcomes with
  | done stands => exact onwards leads (next after reached other _ _ leads stands)
  | failed error => exact ⟨after, leads, .failed error⟩
  | exhausted => exact ⟨after, leads, .exhausted⟩

theorem ofExcept (joined : padded.Padded padding plain) {answer : Except RuntimeError Value}
    (plainly : ∀ value, answer = .ok value → value.IsPlain) :
    padding.Alike Value.Stands padded plain (Run.ofExcept answer padded)
      (Run.ofExcept answer plain) := by
  cases answer with
  | error error => exact failed joined error
  | ok value =>
    have isPlain := plainly value rfl
    exact done (.refl joined)
      ⟨Regime.grounded.plain isPlain, (Value.renumber_of_isPlain isPlain).symm⟩

theorem inScope {scope place : ScopeId} (joined : padded.Padded padding plain) {body : Run α}
    {same : Run β}
    (alike : padding.Alike values { padded with scope } { plain with scope := place }
      (body { padded with scope }) (same { plain with scope := place })) :
    padding.Alike values padded plain (body.inScope scope padded) (same.inScope place plain) := by
  obtain ⟨after, leads, outcomes⟩ := alike
  have back := leads.joined.withScope (leads.scopeStands joined.stands)
  exact ⟨after, ⟨back, leads.grows, leads.others, leads.stands, leads.own, rfl⟩, outcomes⟩

/-- It makes no difference that the one run is in padding. -/
theorem inPadding {scope : ScopeId} (joined : padded.Padded padding plain)
    (stands : padding.Stands padded.heap scope plain.scope) {body : Run α} {same : Run β}
    (alike : padding.Alike values { padded with scope } plain (body { padded with scope })
      (same plain)) :
    padding.Alike values padded plain (body.inScope scope padded) (same plain) := by
  obtain ⟨after, leads, outcomes⟩ := alike
  have back := leads.joined.withScope (leads.scopeStands joined.stands)
  rw [← leads.place (joined.withScope stands)] at back
  exact ⟨after, ⟨back, leads.grows, leads.others, leads.stands, leads.own, rfl⟩, outcomes⟩

theorem nested (joined : padded.Padded padding plain) (paren : Token) {body : Run α} {same : Run β}
    (alike : padding.Alike values { padded with depth := padded.depth + 1 }
      { plain with depth := plain.depth + 1 } (body { padded with depth := padded.depth + 1 })
      (same { plain with depth := plain.depth + 1 })) :
    padding.Alike values padded plain (body.nested paren padded) (same.nested paren plain) := by
  unfold Run.nested
  by_cases deep : depthLimit ≤ padded.depth
  · rw [if_pos deep, if_pos (joined.depth ▸ deep)]
    exact failed joined _
  · rw [if_neg deep, if_neg (joined.depth ▸ deep)]
    obtain ⟨after, leads, outcomes⟩ := alike
    have back := leads.joined.withDepth (congrArg (· - 1) leads.joined.depth)
    exact ⟨after, ⟨back, leads.grows, leads.others, leads.stands, leads.own, leads.scope⟩, outcomes⟩

end Rules

section Steps

variable (joined : padded.Padded padding plain)
include joined

theorem lookup (name : Token) :
    padding.Alike Value.Stands padded plain (Run.lookup name padded) (Run.lookup name plain) := by
  have found := joined.heap.find?_eq joined.grounded.heap joined.plainly joined.grounded.scope
    name.lexeme
  rw [← joined.scope] at found
  unfold Run.lookup Heap.get
  rw [found]
  cases bound : padded.heap.find? padded.scope name.lexeme with
  | none => exact failed joined _
  | some value =>
    have carries : padded.heap.Carries value := by
      obtain ⟨binder, _, here⟩ := Option.bind_eq_some_iff.1 bound
      exact joined.grounded.heap.carries_bound here
    exact done (.refl joined) ⟨carries, rfl⟩

/-- Changes that fail with one error, or leave the one heap padded as compared with the other. -/
theorem onHeap {change other : Heap → ScopeId → Except RuntimeError Heap}
    (answers : (∃ error, change padded.heap padded.scope = .error error ∧
        other plain.heap plain.scope = .error error) ∨
      ∃ heap heap', change padded.heap padded.scope = .ok heap ∧
        other plain.heap plain.scope = .ok heap' ∧
        padding.Leads padded plain padding { padded with heap } { plain with heap := heap' }) :
    padding.Alike equal padded plain (Run.onHeap change padded) (Run.onHeap other plain) := by
  unfold Run.onHeap
  obtain ⟨error, stops, also⟩ | ⟨heap, heap', goes, also, leads⟩ := answers
  · rw [stops, also]
    exact failed joined error
  · rw [goes, also]
    exact done leads rfl

theorem assign (name : Token) {value same : Value}
    (given : value.Stands padding padded.heap same) :
    padding.Alike equal padded plain (Run.assign name value padded)
      (Run.assign name same plain) := by
  obtain ⟨found, binds⟩ := joined.heap.binder?_eq joined.grounded.heap joined.plainly
    joined.grounded.scope name.lexeme
  rw [← joined.scope] at found
  apply onHeap joined
  dsimp only [Heap.assign]
  rw [found]
  cases bound : padded.heap.binder? padded.scope name.lexeme with
  | none => exact .inl ⟨_, rfl, rfl⟩
  | some binder =>
    obtain ⟨present, own⟩ := binds binder bound
    have plainly := joined.plainly.update (padding.stands binder) name.lexeme (given.carried joined.heap)
    have grounded := joined.grounded.heap.update binder name.lexeme given.carries
    refine .inr ⟨_, _, rfl, rfl, joined.modify ⟨present, rfl⟩ own ?_ grounded plainly⟩
    obtain rfl := given.renumbered
    exact fun scope => scope.update_renumber name.lexeme value

theorem defineIn {scope place : ScopeId} (stands : padding.Stands padded.heap scope place)
    (own : padding.IsOwn scope) (name : Token) {value same : Value}
    (given : value.Stands padding padded.heap same) :
    padding.Alike equal padded plain (Run.defineIn scope name value padded)
      (Run.defineIn place name same plain) := by
  have bound := joined.heap.local?_own stands.present own name.lexeme
  rw [← stands.renumbered] at bound
  apply onHeap joined
  dsimp only [Heap.define]
  rw [bound]
  cases padded.heap.local? scope name.lexeme with
  | some _ => exact .inl ⟨_, rfl, rfl⟩
  | none =>
    have plainly := joined.plainly.insert place name.lexeme (given.carried joined.heap)
    have grounded := joined.grounded.heap.insert scope name.lexeme given.carries
    refine .inr ⟨_, _, rfl, rfl, joined.modify stands own ?_ grounded plainly⟩
    obtain rfl := given.renumbered
    exact fun scope => scope.insert_renumber name.lexeme value

theorem define (own : padding.IsOwn padded.scope) (name : Token) {value same : Value}
    (given : value.Stands padding padded.heap same) :
    padding.Alike equal padded plain (Run.define name value padded)
      (Run.define name same plain) :=
  defineIn joined joined.stands own name given

/-- A declaration, once there is a value for the name. -/
theorem declared (own : padding.IsOwn padded.scope) (name : Token) {value same : Value}
    (given : value.Stands padding padded.heap same) :
    padding.Alike Flow.Stands padded plain
      ((Run.define name value >>= fun _ => Pure.pure Flow.normal) padded)
      ((Run.define name same >>= fun _ => Pure.pure Flow.normal) plain) := by
  apply bind (define joined own name given)
  intro after reached other _ _ leads _
  exact pure leads.joined .normal

theorem currentScope :
    padding.Alike Stands padded plain (Run.currentScope padded) (Run.currentScope plain) :=
  done (.refl joined) joined.stands

/-- A new scope on both sides is no padding. -/
theorem newScope {enclosing around : ScopeId} (stands : padding.Stands padded.heap enclosing around) :
    padding.Alike (fun padding heap scope other => padding.Stands heap scope other ∧
        padding.IsOwn scope) padded plain (Run.newScope enclosing padded)
      (Run.newScope around plain) := by
  obtain ⟨present, rfl⟩ := stands
  have fresh : (padding.pair padded.heap.scopes.size plain.heap.scopes.size).stands
      padded.heap.scopes.size = plain.heap.scopes.size := if_pos rfl
  refine done (joined.addScope present) ⟨⟨?_, fresh.symm⟩, ?_⟩
  · simp [Heap.addScope]
  · rw [IsOwn, fresh]
    exact if_pos rfl

theorem newCallable (name : Token) (parameters : List Token) (body : List Stmt)
    {closure place : ScopeId} (stands : padding.Stands padded.heap closure place) :
    padding.Alike (fun padding heap callable other =>
        (Value.callable callable).Stands padding heap (.callable other)) padded plain
      (Run.newCallable (.declared { name, parameters, body, closure }) padded)
      (Run.newCallable (.declared { name, parameters, body, closure := place }) plain) := by
  have number := joined.heap.callables
  have leads : padding.Leads padded plain padding
      { padded with heap := (padded.heap.addCallable (.declared ⟨name, parameters, body, closure⟩)).2 }
      { plain with heap := (plain.heap.addCallable (.declared ⟨name, parameters, body, place⟩)).2 } :=
    joined.withHeap { joined.heap with callables := congrArg (· + 1) number } (.addCallable _ _)
      (.addCallable _ _) ⟨joined.grounded.heap.outermost, joined.grounded.heap.older,
        joined.grounded.heap.closures⟩
      ⟨joined.plainly.outermost, joined.plainly.older, joined.plainly.closures⟩
      (fun _ _ => rfl) fun _ _ => rfl
  refine done leads ⟨?_, ?_⟩
  · rintro _ ⟨⟩
    exact stands.present
  · obtain rfl := stands.renumbered
    rw [number]
    rfl

theorem emit (text : String) :
    padding.Alike equal padded plain (Run.emit text padded) (Run.emit text plain) := by
  have leads := joined.outside (congrArg (· ++ text) joined.output) joined.clock
  exact done leads rfl

theorem readClock :
    padding.Alike equal padded plain (Run.readClock padded) (Run.readClock plain) := by
  have looked := congrArg (fun clock : Clock => { clock with looks := clock.looks + 1 }) joined.clock
  have leads := joined.outside joined.output looked
  unfold Run.readClock
  rw [joined.clock] at leads ⊢
  exact done leads rfl

theorem callNative (builtin : Native) {arguments others : List Value}
    (given : padding.valuesStand padded.heap arguments others) (paren : Token) :
    padding.Alike Value.Stands padded plain (callNative builtin arguments paren padded)
      (callNative builtin others paren plain) := by
  have printed (text : String) : padding.Alike Value.Stands padded plain
      ((Run.emit text >>= fun _ => Pure.pure Value.nil) padded)
      ((Run.emit text >>= fun _ => Pure.pure Value.nil) plain) := by
    apply bind (emit joined text)
    intro after reached other _ _ leads _
    exact pure leads.joined ⟨nofun, rfl⟩
  unfold TinyScript.callNative joinedText
  rw [Value.texts_of_stand given, Value.hexTexts_of_stand given]
  cases builtin with
  | clock =>
    apply bind (readClock joined)
    rintro after reached other reading _ leads rfl
    exact pure leads.joined ⟨nofun, rfl⟩
  | print => exact printed _
  | println => exact printed _
  | inHex =>
    cases arguments.mapM Value.hexText? with
    | some texts => exact printed _
    | none => exact failed joined _

end Steps

end Alike

end Padding

end TinyScript
