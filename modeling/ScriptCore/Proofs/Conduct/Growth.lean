import ScriptCore.Interpreter
import ScriptCore.Proofs.Frames

/-!
What programs can do to a heap.

Whatever a program does, some things in its heap stay: a function is what it was made as, an
instance is of the class it was made of and owns a resource of the same kind once it owns one, a
promise that is settled keeps its outcome, and arrays and scopes stay where they are, whatever is
written to them. A heap grows into another one if they stay, and if the functions that are new look
at the settings of the interpreter only where this is allowed. Every step on a heap that a program
can take makes it grow.
-/

namespace ScriptCore

/-! ### Looking at the settings -/

/-- Whether an operation looks at the settings. A debug text does: most values have none of their
own and show the interpreter. -/
def Operation.inspects : Operation → Bool
  | .configuration | .debugText => true
  | _ => false

mutual

/-- Whether an expression has an operation in it that looks at the settings, also where it only
defines a function or registers a package. -/
def Expr.inspects : Expr → Bool
  | .literal _ => false
  | .apply op operands => op.inspects || Expr.anyInspects operands
  | .block body => Expr.anyInspects body
  | .scope body => Expr.anyInspects body
  | .choose condition yes no => condition.inspects || yes.inspects || no.inspects
  | .loop _ _ body => Expr.anyInspects body
  | .ret result => result.inspects
  | .attempt e => e.inspects
  | .function _ _ _ body => Expr.anyInspects body
  | .native _ body => Expr.anyInspects body
  | .package _ body => Expr.anyInspects body
  | .program body => Expr.anyInspects body
  | .exitStatus body => Expr.anyInspects body

/-- Whether one of the expressions of a body does. -/
def Expr.anyInspects : List Expr → Bool
  | [] => false
  | e :: rest => e.inspects || Expr.anyInspects rest

end

/-- Whether a native function has a body that looks at the settings. -/
def NativeAction.inspects : NativeAction → Bool
  | .body es => Expr.anyInspects es
  | _ => false

/-- Whether a function has such a body. -/
def Callable.inspects : Callable → Bool
  | .native _ action => action.inspects
  | .script _ _ _ _ body => Expr.anyInspects body

/-- Whether an initialiser has such a body. -/
def Initializer.inspects : Initializer → Bool
  | .body _ es => Expr.anyInspects es
  | .builtin _ => false
  | .prelude => false

theorem Callable.inspects_ofScript {name : String} {params : List String} {variadic : Bool}
    {closure : Ref .scope} {body : List Expr} {callable : Callable}
    (made : ofScript name params variadic closure body = .ok callable) :
    callable.inspects = Expr.anyInspects body := by
  unfold ofScript at made
  split at made
  · split at made <;> cases made
    rfl
  · cases made
    rfl

/-! ### Stores -/

/-- Changing a store keeps the kind of the resource that it is. -/
class StoreType.KeepsKind {σ : Type} (type : StoreType σ) : Prop where
  kind_change : ∀ step resource, (type.change step resource).kind = resource.kind

namespace StoreType

instance : KeepsKind map := ⟨fun _ resource => by cases resource <;> rfl⟩
instance : KeepsKind set := ⟨fun _ resource => by cases resource <;> rfl⟩
instance : KeepsKind stack := ⟨fun _ resource => by cases resource <;> rfl⟩
instance : KeepsKind deque := ⟨fun _ resource => by cases resource <;> rfl⟩
instance : KeepsKind priority := ⟨fun _ resource => by cases resource <;> rfl⟩
instance : KeepsKind listeners := ⟨fun _ resource => by cases resource <;> rfl⟩

end StoreType

/-! ### Growing -/

section Rows

variable {kind : CellKind} {α : Type} (cells : Cells kind α)

theorem Cells.size_le_alloc (content : α) : cells.size ≤ (cells.alloc content).2.size := by
  simp [Cells.size, Cells.alloc]

theorem Cells.size_le_modify (r : Ref kind) (step : α → α) :
    cells.size ≤ (cells.modify r step).size := by
  simp [Cells.size, Cells.modify]

end Rows

/-- A cell that is there is none of those that are still new when no cell has gone away. -/
theorem Cells.ne_of_new {kind : CellKind} {α : Type} {cells cells' : Cells kind α}
    {r s : Ref kind} {content : α}
    (found : cells.get? r = some content) (kept : cells.size ≤ cells'.size)
    (new : cells'.get? s = none) : r ≠ s := by
  rintro rfl
  obtain ⟨below, -⟩ := Array.getElem?_eq_some_iff.1 found
  have beyond := Array.getElem?_eq_none_iff.1 new
  rw [size, size] at kept
  omega

/-- The later content of an instance is of the same class, and if the earlier one has a resource
then it has one of the same kind. -/
structure Instance.Lasts (content later : Instance) : Prop where
  cls : later.cls = content.cls
  resource : ∀ resource, content.resource = some resource →
    ∃ changed, later.resource = some changed ∧ changed.kind = resource.kind

theorem Instance.Lasts.refl (content : Instance) : content.Lasts content :=
  ⟨rfl, fun resource owned => ⟨resource, owned, rfl⟩⟩

theorem Instance.Lasts.trans {first second third : Instance} (early : first.Lasts second)
    (late : second.Lasts third) : first.Lasts third where
  cls := late.cls.trans early.cls
  resource resource owned := by
    obtain ⟨changed, owned', kind⟩ := early.resource resource owned
    obtain ⟨changed', owned'', kind'⟩ := late.resource changed owned'
    exact ⟨changed', owned'', kind'.trans kind⟩

/-- The functions, instances and settled promises of the first heap last in the second one, no array
or scope of it goes away, and the other functions of the second one look at the settings only if
that is allowed. -/
structure Heap.Grows (inspecting : Prop) (h h' : Heap) : Prop where
  functions : h.functions.Kept h'.functions
  bodies : ∀ f callable, h'.functions.get? f = some callable →
    h.functions.get? f = some callable ∨ (callable.inspects = true → inspecting)
  instances : ∀ r content, h.instances.get? r = some content →
    ∃ later, h'.instances.get? r = some later ∧ content.Lasts later
  promises : ∀ r outcome, h.promises.get? r = some outcome → outcome.isPending = false →
    h'.promises.get? r = some outcome
  arrays : h.arrays.size ≤ h'.arrays.size
  scopes : h.scopes.size ≤ h'.scopes.size

namespace Heap.Grows

variable {inspecting : Prop} {h h' h'' : Heap}

theorem refl (h : Heap) : h.Grows inspecting h where
  functions := .refl _
  bodies _ _ := .inl
  instances _ content found := ⟨content, found, .refl content⟩
  promises _ _ found _ := found
  arrays := Nat.le_refl _
  scopes := Nat.le_refl _

theorem trans (first : h.Grows inspecting h') (second : h'.Grows inspecting h'') :
    h.Grows inspecting h'' where
  functions := first.functions.trans second.functions
  bodies f callable found :=
    (second.bodies f callable found).elim (first.bodies f callable) .inr
  instances r content found := by
    obtain ⟨later, found', lasts⟩ := first.instances r content found
    obtain ⟨last, found'', lasts'⟩ := second.instances r later found'
    exact ⟨last, found'', lasts.trans lasts'⟩
  promises r outcome found settled :=
    second.promises r outcome (first.promises r outcome found settled) settled
  arrays := Nat.le_trans first.arrays second.arrays
  scopes := Nat.le_trans first.scopes second.scopes

theorem mono {allowed : Prop} (grows : h.Grows inspecting h') (wider : inspecting → allowed) :
    h.Grows allowed h' where
  functions := grows.functions
  bodies f callable found :=
    (grows.bodies f callable found).imp_right fun plain does => wider (plain does)
  instances := grows.instances
  promises := grows.promises
  arrays := grows.arrays
  scopes := grows.scopes

/-- What an instance owns stays of its kind. -/
theorem owns (grows : h.Grows inspecting h') {r : Ref .inst} {resource : Resource}
    (owned : h.Owns r resource) : ∃ now, h'.Owns r now ∧ now.kind = resource.kind := by
  obtain ⟨content, found, has⟩ := Option.map_eq_some_iff.1 owned
  obtain ⟨later, found', lasts⟩ := grows.instances r content found
  obtain ⟨now, owned', kind⟩ := lasts.resource resource has
  exact ⟨now, Option.map_eq_some_iff.2 ⟨later, found', owned'⟩, kind⟩

/-- A heap in which only arrays differ, and none goes away. -/
theorem of_arrays {arrays : Cells .array (Array Value)} (kept : h.arrays.size ≤ arrays.size) :
    h.Grows inspecting { h with arrays } := { refl h with arrays := kept }

/-- A heap in which only scopes differ, and none goes away. -/
theorem of_scopes {scopes : Cells .scope Scope} (kept : h.scopes.size ≤ scopes.size) :
    h.Grows inspecting { h with scopes } := { refl h with scopes := kept }

/-- A heap in which only objects differ. -/
theorem of_objects (objects : Cells .object Table) : h.Grows inspecting { h with objects } :=
  { refl h with }

/-- A heap in which only classes differ. -/
theorem of_classes (classes : Cells .cls ClassInfo) : h.Grows inspecting { h with classes } :=
  { refl h with }

/-- A heap in which only instances differ. -/
theorem of_instances {instances : Cells .inst Instance}
    (lasts : ∀ r content, h.instances.get? r = some content →
      ∃ later, instances.get? r = some later ∧ content.Lasts later) :
    h.Grows inspecting { h with instances } := { refl h with instances := lasts }

/-- A heap in which only promises differ. -/
theorem of_promises {promises : Cells .promise Promise}
    (settled : ∀ r outcome, h.promises.get? r = some outcome → outcome.isPending = false →
      promises.get? r = some outcome) :
    h.Grows inspecting { h with promises } := { refl h with promises := settled }

theorem newFunction (h : Heap) {callable : Callable}
    (plain : callable.inspects = true → inspecting) :
    h.Grows inspecting (h.newFunction callable).2 :=
  { (refl h : h.Grows inspecting h) with
    functions := h.functions.kept_alloc callable
    bodies := fun f other found => by
      have here : (h.functions.alloc callable).2.get? f = some other := found
      rw [Cells.get?_alloc] at here
      by_cases last : f.index = h.functions.size
      · rw [if_pos last] at here
        cases here
        exact .inr plain
      · rw [if_neg last] at here
        exact .inl here }

theorem newInstance (h : Heap) (cls : Ref .cls) : h.Grows inspecting (h.newInstance cls).2 :=
  of_instances fun _ content found =>
    ⟨content, h.instances.kept_alloc _ _ _ found, .refl content⟩

theorem newPromise (h : Heap) (state : Promise) : h.Grows inspecting (h.newPromise state).2 :=
  of_promises fun _ _ found _ => h.promises.kept_alloc _ _ _ found

/-- Changing an instance to one that it lasts in. -/
theorem modify (r : Ref .inst) {step : Instance → Instance}
    (lasts : ∀ content, h.instances.get? r = some content → content.Lasts (step content)) :
    h.Grows inspecting { h with instances := h.instances.modify r step } := by
  refine of_instances fun s content found => ?_
  rw [Cells.get?_modify, found]
  by_cases same : r = s
  · subst same
    exact ⟨step content, by rw [if_pos rfl, Option.map_some], lasts content found⟩
  · exact ⟨content, if_neg same, .refl content⟩

theorem setField (h : Heap) (r : Ref .inst) (name : String) (value : Value) :
    h.Grows inspecting (h.setField r name value) :=
  modify r fun _ _ => ⟨rfl, fun resource owned => ⟨resource, owned, rfl⟩⟩

theorem changeStore {σ : Type} (h : Heap) (type : StoreType σ) [type.KeepsKind] (r : Ref .inst)
    (step : σ → σ) : h.Grows inspecting (h.changeStore type r step) := by
  refine modify r fun content _ => ⟨rfl, fun resource owned => ⟨type.change step resource, ?_, ?_⟩⟩
  · exact congrArg (Option.map (type.change step)) owned
  · exact StoreType.KeepsKind.kind_change step resource

/-- Attaching to an instance that owns nothing. -/
theorem setResource {r : Ref .inst} (unowned : h.checkUnowned r = .ok ()) (resource : Resource) :
    h.Grows inspecting (h.setResource r resource) := by
  refine modify r fun content found => ⟨rfl, fun owned has => ?_⟩
  rw [checkUnowned, inst, found, Option.getD_some, has] at unowned
  cases unowned

/-- Settling a promise that is pending. -/
theorem setOutcome {r : Ref .promise} (pending : h.checkPending r = .ok ()) (outcome : Promise) :
    h.Grows inspecting (h.setOutcome r outcome) := by
  refine of_promises fun s settled found final => ?_
  rw [Cells.get?_modify]
  by_cases same : r = s
  · subst same
    rw [checkPending, promise, found, Option.getD_some, final] at pending
    cases pending
  · rw [if_neg same, found]

theorem newArray (h : Heap) (items : List Value) : h.Grows inspecting (h.newArray items).2 :=
  of_arrays (h.arrays.size_le_alloc _)

theorem append (h : Heap) (r : Ref .array) (values : List Value) :
    h.Grows inspecting (h.append r values) := of_arrays (h.arrays.size_le_modify r _)

theorem newObject (h : Heap) (entries : Table) : h.Grows inspecting (h.newObject entries).2 :=
  of_objects _

theorem modifyEntries (h : Heap) (r : Ref .object) (step : Table → Table) :
    h.Grows inspecting (h.modifyEntries r step) := of_objects _

theorem newClass (h : Heap) (info : ClassInfo) : h.Grows inspecting (h.newClass info).2 :=
  of_classes _

theorem setMethod (h : Heap) (r : Ref .cls) (name : String) (method : Ref .function) :
    h.Grows inspecting (h.setMethod r name method) := of_classes _

theorem newScope (h : Heap) : h.Grows inspecting h.newScope.2 :=
  of_scopes (h.scopes.size_le_alloc _)

theorem childScope (h : Heap) (parent : Ref .scope) :
    h.Grows inspecting (h.childScope parent).2 := of_scopes (h.scopes.size_le_alloc _)

theorem define (h : Heap) (s : Ref .scope) (name : String) (value : Value) :
    h.Grows inspecting (h.define s name value) := of_scopes (h.scopes.size_le_modify s _)

theorem defineAll (h : Heap) (s : Ref .scope) (bindings : List (String × Value)) :
    h.Grows inspecting (h.defineAll s bindings) := by
  induction bindings generalizing h with
  | nil => exact refl h
  | cons binding rest ih => exact (define h s binding.1 binding.2).trans (ih _)

mutual

/-- The functions of literals have no bodies. -/
theorem build : ∀ (d : Datum) (h : Heap), h.Grows inspecting (Heap.build d h).2
  | .null, h => refl h
  | .boolean _, h => refl h
  | .number _, h => refl h
  | .text _, h => refl h
  | .array items, h => (buildItems items h).trans (newArray _ _)
  | .object entries, h => (buildEntries entries h).trans (newObject _ _)
  | .function _ native, h => by
    cases native with
    | true => exact newFunction h nofun
    | false =>
      exact (newScope h).trans (newFunction _ fun does => absurd does Bool.false_ne_true)
  | .cls _, h => newClass h _
  | .inst className, h => (newClass h { name := className, native := false }).trans
    (newInstance _ _)
  | .pending, h => newPromise h _
  | .fulfilled d, h => (build d h).trans (newPromise _ _)
  | .rejected d, h => (build d h).trans (newPromise _ _)

theorem buildItems : ∀ (ds : List Datum) (h : Heap), h.Grows inspecting (Heap.buildItems ds h).2
  | [], h => refl h
  | d :: rest, h => (build d h).trans (buildItems rest _)

theorem buildEntries : ∀ (ds : List (String × Datum)) (h : Heap),
    h.Grows inspecting (Heap.buildEntries ds h).2
  | [], h => refl h
  | (_, d) :: rest, h => (build d h).trans (buildEntries rest _)

end

end Heap.Grows

end ScriptCore
