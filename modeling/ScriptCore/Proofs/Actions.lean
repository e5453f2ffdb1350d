import Mathlib.Data.List.Basic
import ScriptCore.Native.Receiver

/-!
How actions run, and what they leave alone.

Each step of an action is given by what it makes of a machine, so that the methods of native
classes can be carried out by rewriting. An instance owns a resource as long as nothing changes
that resource; in particular new arrays and new instances do not.
-/

namespace ScriptCore

/-! ### Running -/

namespace Run

variable {ε α β : Type}

@[simp]
theorem on_pure (a : α) (m : Machine) : (pure a : Run ε α).on m = (.ok a, m) := rfl

@[simp]
theorem on_bind (run : Run ε α) (next : α → Run ε β) (m : Machine) :
    (run >>= next).on m = match run.on m with
      | (.ok a, m) => (next a).on m
      | (.error e, m) => (.error e, m) := by
  simp only [Run.on, bind, ExceptT.bind, ExceptT.mk, StateT.bind, ExceptT.bindCont]
  cases run m with
  | mk result m => cases result <;> rfl

@[simp]
theorem on_map (f : α → β) (run : Run ε α) (m : Machine) :
    (f <$> run).on m = match run.on m with
      | (.ok a, m) => (.ok (f a), m)
      | (.error e, m) => (.error e, m) := on_bind run (fun a => pure (f a)) m

theorem on_discard (run : Run ε α) (m : Machine) :
    (discard run : Run ε PUnit).on m = match run.on m with
      | (.ok _, m) => (.ok ⟨⟩, m)
      | (.error e, m) => (.error e, m) := on_map (Function.const α PUnit.unit) run m

theorem on_bind_of_ok {run : Run ε α} {m m' : Machine} {a : α} (done : run.on m = (.ok a, m'))
    (next : α → Run ε β) : (run >>= next).on m = (next a).on m' := by rw [on_bind, done]

theorem on_bind_eq_ok {run : Run ε α} {next : α → Run ε β} {m m' : Machine} {b : β} :
    (run >>= next).on m = (.ok b, m') ↔
      ∃ a between, run.on m = (.ok a, between) ∧ (next a).on between = (.ok b, m') := by
  rw [on_bind]
  cases run.on m with
  | mk result between => cases result <;> simp

end Run

namespace Action

variable {α : Type}

@[simp]
theorem on_get (m : Machine) : (get : Action Machine).on m = (.ok m, m) := rfl

@[simp]
theorem on_modify (step : Machine → Machine) (m : Machine) :
    (modify step : Action Unit).on m = (.ok (), step m) := rfl

@[simp]
theorem on_check_ok (a : α) (m : Machine) : (check (.ok a)).on m = (.ok a, m) := rfl

@[simp]
theorem on_check_error (cause : Cause) (m : Machine) :
    (check (.error cause) : Action α).on m = (.error (.fault { cause }), m) := rfl

theorem on_check_eq_ok {result : Except Cause α} {a : α} {m m' : Machine} :
    (check result).on m = (.ok a, m') ↔ result = .ok a ∧ m = m' := by
  cases result <;> simp

@[simp]
theorem on_readHeap (view : Heap → α) (m : Machine) :
    (readHeap view).on m = (.ok (view m.heap), m) := rfl

@[simp]
theorem on_viewHeap (view : Heap → Except Cause α) (m : Machine) :
    (viewHeap view).on m = (check (view m.heap)).on m := rfl

@[simp]
theorem on_modifyHeap (step : Heap → Heap) (m : Machine) :
    (modifyHeap step).on m = (.ok (), { m with heap := step m.heap }) := rfl

@[simp]
theorem on_onHeap (step : Heap → α × Heap) (m : Machine) :
    (onHeap step).on m = (.ok (step m.heap).1, { m with heap := (step m.heap).2 }) := rfl

@[simp]
theorem on_newArray (items : List Value) (m : Machine) :
    (newArray items).on m = (.ok (m.heap.newArray items).1,
      { m with heap := (m.heap.newArray items).2 }) := rfl

end Action

/-- A body that does no more than an action comes to what the action comes to. -/
theorem Execution.result_exec (action : Action Value) : Execution.result action.exec = action := by
  funext m
  have runs : action.exec m = ((action m).1.mapError .failed, (action m).2) := rfl
  rw [Execution.result, runs]
  cases action m with
  | mk result n => cases result <;> rfl

/-! ### Owning a resource -/

namespace Heap

/-- The resource of an instance, if the instance exists and owns one. -/
def owner (h : Heap) (r : Ref .inst) : Option (Option Resource) :=
  (h.instances.get? r).map Instance.resource

/-- The instance exists and owns nothing. -/
def Bare (h : Heap) (r : Ref .inst) : Prop := h.owner r = some none

/-- The instance exists and owns the resource. -/
def Owns (h : Heap) (r : Ref .inst) (resource : Resource) : Prop :=
  h.owner r = some (some resource)

end Heap

section Cells

variable {kind : CellKind} {α : Type}

theorem Cells.get?_modify (cells : Cells kind α) (r s : Ref kind) (step : α → α) :
    (cells.modify r step).get? s = if r = s then (cells.get? s).map step else cells.get? s := by
  cases r
  cases s
  simp [modify, get?, Array.getElem?_modify]

theorem Cells.get?_alloc (cells : Cells kind α) (content : α) (s : Ref kind) :
    (cells.alloc content).2.get? s =
      if s.index = cells.size then some content else cells.get? s := by
  rw [get?, alloc, Array.getElem?_push]
  rfl

theorem Cells.get?_size (cells : Cells kind α) : cells.get? ⟨cells.size⟩ = none :=
  Array.getElem?_size

end Cells

namespace Heap

variable {h : Heap} {r : Ref .inst}

theorem owner_modify (step : Instance → Instance) (s : Ref .inst) :
    ({ h with instances := h.instances.modify r step } : Heap).owner s =
      if r = s then (h.instances.get? s).map (Instance.resource ∘ step) else h.owner s := by
  rw [owner, owner, Cells.get?_modify]
  split
  · rw [Option.map_map]
  · rfl

/-- Attaching gives the instance the resource. -/
theorem owns_setResource {old : Option Resource} (present : h.owner r = some old)
    (resource : Resource) : (h.setResource r resource).Owns r resource := by
  obtain ⟨content, found, -⟩ := Option.map_eq_some_iff.1 present
  rw [Owns, setResource, owner_modify, if_pos rfl, found]
  rfl

/-- The reference of a new instance. -/
def nextInstance (h : Heap) : Ref .inst := ⟨h.instances.size⟩

theorem get?_nextInstance (h : Heap) : h.instances.get? h.nextInstance = none :=
  h.instances.get?_size

theorem bare_newInstance (h : Heap) (cls : Ref .cls) :
    (h.newInstance cls).2.Bare h.nextInstance := by
  simp [Bare, owner, newInstance, nextInstance, Cells.get?_alloc]

/-- The heap with a new instance of a class, which owns a resource. -/
def newOwner (h : Heap) (cls : Ref .cls) (resource : Resource) : Heap :=
  (h.newInstance cls).2.setResource h.nextInstance resource

theorem get?_newOwner (h : Heap) (cls : Ref .cls) (resource : Resource) :
    (h.newOwner cls resource).instances.get? h.nextInstance =
      some { cls, resource := some resource } := by
  have last : h.nextInstance.index = h.instances.size := rfl
  rw [newOwner, setResource, Cells.get?_modify, if_pos rfl, newInstance, Cells.get?_alloc,
    if_pos last]
  rfl

theorem get?_newOwner_of_old {h : Heap} {s : Ref .inst} {content : Instance}
    (old : h.instances.get? s = some content) (cls : Ref .cls) (resource : Resource) :
    (h.newOwner cls resource).instances.get? s = some content := by
  have apart : s.index ≠ h.instances.size := by
    rintro same
    have := h.get?_nextInstance
    rw [nextInstance, ← same] at this
    exact Option.some_ne_none content (old.symm.trans this)
  have other : h.nextInstance ≠ s := fun same => apart (same ▸ rfl)
  rw [newOwner, setResource, Cells.get?_modify, if_neg other, newInstance, Cells.get?_alloc,
    if_neg apart, old]

theorem checkUnowned_of_bare (bare : h.Bare r) : h.checkUnowned r = .ok () := by
  obtain ⟨content, found, none⟩ := Option.map_eq_some_iff.1 bare
  simp [checkUnowned, inst, found, none]

theorem resource_of_owns {resource : Resource} (owns : h.Owns r resource) :
    (h.inst r).resource = some resource := by
  obtain ⟨content, found, has⟩ := Option.map_eq_some_iff.1 owns
  rw [inst, found, Option.getD_some, has]

section Stores

variable {σ : Type} {type : StoreType σ} (lawful : ∀ s, type.project (type.inject s) = some s)
  {store : σ} (owns : h.Owns r (type.inject store))

include lawful owns

theorem store_of_owns (operation : String) : h.store type operation r = .ok store := by
  simp [Heap.store, store?, resource_of_owns owns, lawful]

theorem owns_changeStore (step : σ → σ) :
    (h.changeStore type r step).Owns r (type.inject (step store)) := by
  obtain ⟨content, found, resource⟩ := Option.map_eq_some_iff.1 owns
  rw [Owns, changeStore, owner_modify, if_pos rfl, found]
  simp [resource, StoreType.change, lawful]

end Stores

end Heap

/-! ### Working on a store -/

/-- The machine in which the store of an instance is changed. -/
def Machine.changeStore {σ : Type} (m : Machine) (type : StoreType σ) (r : Ref .inst)
    (step : σ → σ) : Machine := { m with heap := m.heap.changeStore type r step }

namespace Action

variable {α : Type} {m : Machine} {r : Ref .inst}

theorem on_attach (bare : m.heap.Bare r) (resource : Resource) :
    (attach r resource).on m = (.ok (), { m with heap := m.heap.setResource r resource }) := by
  rw [attach, Run.on_bind, on_viewHeap, Heap.checkUnowned_of_bare bare]
  rfl

section Stores

variable {σ : Type} {type : StoreType σ} (lawful : ∀ s, type.project (type.inject s) = some s)
  {store : σ} (owns : m.heap.Owns r (type.inject store))

include lawful owns

theorem on_readStore (operation : String) (view : σ → α) :
    (readStore type operation r view).on m = (.ok (view store), m) := by
  rw [readStore, Run.on_bind, on_viewHeap, Heap.store_of_owns lawful owns]
  rfl

theorem on_useStore (operation : String) (view : σ → α) (step : σ → σ) :
    (useStore type operation r view step).on m =
      (.ok (view store), m.changeStore type r step) := by
  rw [useStore, Run.on_bind_of_ok (on_readStore lawful owns operation view)]
  rfl

end Stores

end Action

namespace Native

variable {α σ : Type} {m : Machine} {r : Ref .inst} {type : StoreType σ}
  (lawful : ∀ s, type.project (type.inject s) = some s) {store : σ}

theorem on_attachToReceiver (bare : m.heap.Bare r) (label : String) (resource : Resource) :
    (attachToReceiver label (some (.inst r)) resource).on m =
      (.ok .null, { m with heap := m.heap.setResource r resource }) := by
  simp [attachToReceiver, Arguments.receiver, Action.on_attach bare]

section Stores

variable (owns : m.heap.Owns r (type.inject store))

include lawful owns

theorem on_readStore (label : String) (view : σ → α) :
    (readStore type label (some (.inst r)) view).on m = (.ok (view store), m) := by
  simp [readStore, Arguments.receiver, Action.on_readStore lawful owns]

theorem on_useStore (label : String) (view : σ → α) (step : σ → σ) :
    (useStore type label (some (.inst r)) view step).on m =
      (.ok (view store), m.changeStore type r step) := by
  simp [useStore, Arguments.receiver, Action.on_useStore lawful owns]

end Stores

end Native

/-! ### New arrays -/

namespace Heap

variable {h h' h'' : Heap}

/-- What an array value holds. -/
def listing (h : Heap) : Value → List Value
  | .array r => h.items r
  | _ => []

/-- The second heap has the arrays of the first one, with the same items. -/
def ArraysKept (h h' : Heap) : Prop :=
  ∀ r : Ref .array, r.index < h.arrays.size → r.index < h'.arrays.size ∧ h'.items r = h.items r

theorem ArraysKept.refl (h : Heap) : h.ArraysKept h := fun _ below => ⟨below, rfl⟩

theorem ArraysKept.trans (first : h.ArraysKept h') (second : h'.ArraysKept h'') :
    h.ArraysKept h'' := by
  intro r below
  obtain ⟨below', same⟩ := first r below
  obtain ⟨below'', same'⟩ := second r below'
  exact ⟨below'', same'.trans same⟩

/-- The reference of a new array. -/
def nextArray (h : Heap) : Ref .array := ⟨h.arrays.size⟩

theorem newArray_fst (h : Heap) (items : List Value) : (h.newArray items).1 = .array h.nextArray :=
  rfl

theorem nextArray_lt_newArray (h : Heap) (items : List Value) :
    h.nextArray.index < (h.newArray items).2.arrays.size := by
  simp [nextArray, newArray, Cells.alloc, Cells.size]

theorem get?_nextArray (h : Heap) : h.arrays.get? h.nextArray = none := h.arrays.get?_size

theorem get?_newArray (h : Heap) (items : List Value) :
    (h.newArray items).2.arrays.get? h.nextArray = some items.toArray :=
  (Cells.get?_alloc _ _ _).trans (if_pos rfl)

theorem items_newArray (h : Heap) (items : List Value) :
    (h.newArray items).2.items h.nextArray = items := by
  simp [Heap.items, elements, get?_newArray]

theorem arraysKept_newArray (h : Heap) (items : List Value) :
    h.ArraysKept (h.newArray items).2 := by
  intro r below
  have old : r.index ≠ h.arrays.size := Nat.ne_of_lt below
  refine ⟨?_, by simp [newArray, Heap.items, elements, Cells.get?_alloc, old]⟩
  simp only [newArray, Cells.alloc, Cells.size, Array.size_push]
  exact Nat.lt_succ_of_lt below

end Heap

/-- New arrays for rows of values: one array for each row, and no instance changes. -/
theorem Action.on_newRows (rows : List (List Value)) (m : Machine) :
    ∃ (refs : List (Ref .array)) (heap : Heap),
      (rows.mapM Action.newArray).on m = (.ok (refs.map .array), { m with heap }) ∧
      refs.map heap.items = rows ∧ (∀ r ∈ refs, r.index < heap.arrays.size) ∧
      m.heap.ArraysKept heap ∧ heap.owner = m.heap.owner := by
  induction rows generalizing m with
  | nil => exact ⟨[], m.heap, rfl, rfl, nofun, .refl _, rfl⟩
  | cons row rest ih =>
    obtain ⟨refs, heap, done, held, below, kept, owner⟩ :=
      ih { m with heap := (m.heap.newArray row).2 }
    obtain ⟨newBelow, newHeld⟩ := kept _ (m.heap.nextArray_lt_newArray row)
    refine ⟨m.heap.nextArray :: refs, heap, ?_, ?_, ?_, ?_, owner⟩
    · rw [List.mapM_cons, Run.on_bind_of_ok (on_newArray row m), Run.on_bind_of_ok done]
      rfl
    · rw [List.map_cons, newHeld, Heap.items_newArray, held]
    · rintro r (_ | ⟨_, member⟩)
      · exact newBelow
      · exact below r member
    · exact (m.heap.arraysKept_newArray row).trans kept

/-! ### New objects -/

namespace Heap

/-- The reference of a new object. -/
def nextObject (h : Heap) : Ref .object := ⟨h.objects.size⟩

theorem get?_nextObject (h : Heap) : h.objects.get? h.nextObject = none := h.objects.get?_size

theorem newObject_fst (h : Heap) (entries : Table) :
    (h.newObject entries).1 = .object h.nextObject := rfl

theorem entries_newObject (h : Heap) (entries : Table) :
    (h.newObject entries).2.entries h.nextObject = entries := by
  simp [nextObject, newObject, Heap.entries, Cells.get?_alloc]

theorem entries_modifyEntries_of_ne {r other : Ref .object} (apart : r ≠ other) (h : Heap)
    (step : Table → Table) : (h.modifyEntries r step).entries other = h.entries other := by
  rw [modifyEntries, entries, Cells.get?_modify, if_neg apart]
  rfl

end Heap

end ScriptCore
