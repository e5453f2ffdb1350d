import ScriptCore.Proofs.Actions

/-!
What an operation leaves alone.

A heap stands in a frame of another one if it has every cell of it with the same content, but for
the resource of one instance, the subject; cells may have been added. An action that makes a new
array adds one cell, with the items in it, and changes nothing else. An action is atomic at a
machine if it leaves the machine as it is when it fails, and otherwise leaves a machine in the frame
of its subject. Checks and reading may fail, and come first; what follows must not fail, and each
step of it stays in the frame. The rules below put this together along the steps of an action.
-/

namespace ScriptCore

/-! ### Frames of heaps -/

namespace Cells

variable {kind : CellKind} {α : Type} {cells cells' cells'' : Cells kind α}

/-- Every cell of the first row is in the second one, with the same content. -/
def Kept (cells cells' : Cells kind α) : Prop :=
  ∀ r content, cells.get? r = some content → cells'.get? r = some content

theorem Kept.refl (cells : Cells kind α) : cells.Kept cells := fun _ _ found => found

theorem Kept.trans (first : cells.Kept cells') (second : cells'.Kept cells'') :
    cells.Kept cells'' := fun r content found => second r content (first r content found)

theorem ne_size_of_get? {r : Ref kind} {content : α} (found : cells.get? r = some content) :
    r.index ≠ cells.size := by
  obtain ⟨below, -⟩ := Array.getElem?_eq_some_iff.1 found
  exact Nat.ne_of_lt below

theorem kept_alloc (cells : Cells kind α) (content : α) : cells.Kept (cells.alloc content).2 := by
  intro r old found
  rw [get?_alloc, if_neg (ne_size_of_get? found), found]

end Cells

/-- The second heap has the cells of the first one with the same contents, but for the resource of
the subject. -/
structure Heap.Frame (subject : Option (Ref .inst)) (h h' : Heap) : Prop where
  arrays : h.arrays.Kept h'.arrays
  objects : h.objects.Kept h'.objects
  functions : h.functions.Kept h'.functions
  classes : h.classes.Kept h'.classes
  promises : h.promises.Kept h'.promises
  scopes : h.scopes.Kept h'.scopes
  instances : ∀ r content, h.instances.get? r = some content →
    ∃ resource, h'.instances.get? r = some { content with resource } ∧
      (subject ≠ some r → resource = content.resource)

namespace Heap.Frame

variable {subject : Option (Ref .inst)} {h h' h'' : Heap}

theorem refl (subject : Option (Ref .inst)) (h : Heap) : h.Frame subject h where
  arrays := .refl _
  objects := .refl _
  functions := .refl _
  classes := .refl _
  promises := .refl _
  scopes := .refl _
  instances _ content found := ⟨content.resource, found, fun _ => rfl⟩

theorem trans (first : h.Frame subject h') (second : h'.Frame subject h'') :
    h.Frame subject h'' where
  arrays := first.arrays.trans second.arrays
  objects := first.objects.trans second.objects
  functions := first.functions.trans second.functions
  classes := first.classes.trans second.classes
  promises := first.promises.trans second.promises
  scopes := first.scopes.trans second.scopes
  instances r content found := by
    obtain ⟨between, found', same⟩ := first.instances r content found
    obtain ⟨resource, found'', same'⟩ := second.instances r _ found'
    exact ⟨resource, found'', fun other => (same' other).trans (same other)⟩

/-- A heap in which only instances differ. -/
theorem of_instances {instances : Cells .inst Instance}
    (kept : ∀ r content, h.instances.get? r = some content →
      ∃ resource, instances.get? r = some { content with resource } ∧
        (subject ≠ some r → resource = content.resource)) :
    h.Frame subject { h with instances } :=
  { refl subject h with instances := kept }

theorem newArray (subject : Option (Ref .inst)) (h : Heap) (items : List Value) :
    h.Frame subject (h.newArray items).2 :=
  { refl subject h with arrays := h.arrays.kept_alloc _ }

theorem newFunction (subject : Option (Ref .inst)) (h : Heap) (callable : Callable) :
    h.Frame subject (h.newFunction callable).2 :=
  { refl subject h with functions := h.functions.kept_alloc _ }

/-- Changing an instance so that at most its resource differs. -/
theorem modify (h : Heap) (r : Ref .inst) {step : Instance → Instance}
    (resource : Instance → Option Resource)
    (only : ∀ content, step content = { content with resource := resource content }) :
    h.Frame (some r) { h with instances := h.instances.modify r step } := by
  refine of_instances fun s content found => ?_
  rw [Cells.get?_modify, found]
  by_cases same : r = s
  · exact ⟨resource content, by rw [if_pos same, Option.map_some, only],
      fun other => absurd (congrArg some same) other⟩
  · exact ⟨content.resource, by rw [if_neg same], fun _ => rfl⟩

theorem setResource (h : Heap) (r : Ref .inst) (resource : Resource) :
    h.Frame (some r) (h.setResource r resource) := modify h r (fun _ => some resource) fun _ => rfl

theorem changeStore {σ : Type} (h : Heap) (type : StoreType σ) (r : Ref .inst) (step : σ → σ) :
    h.Frame (some r) (h.changeStore type r step) :=
  modify h r (fun content => content.resource.map (type.change step)) fun _ => rfl

theorem newOwner (subject : Option (Ref .inst)) (h : Heap) (cls : Ref .cls) (resource : Resource) :
    h.Frame subject (h.newOwner cls resource) := by
  refine of_instances fun r content found => ?_
  exact ⟨content.resource, Heap.get?_newOwner_of_old found cls resource, fun _ => rfl⟩

/-- Adding cells is in the frame of any subject. -/
theorem widen (frame : h.Frame none h') (subject : Option (Ref .inst)) : h.Frame subject h' where
  arrays := frame.arrays
  objects := frame.objects
  functions := frame.functions
  classes := frame.classes
  promises := frame.promises
  scopes := frame.scopes
  instances r content found := by
    obtain ⟨resource, found', same⟩ := frame.instances r content found
    exact ⟨resource, found', fun _ => same nofun⟩

/-- An instance, if it is not the subject. -/
theorem get?_eq (frame : h.Frame subject h') {r : Ref .inst} {content : Instance}
    (found : h.instances.get? r = some content) (other : subject ≠ some r) :
    h'.instances.get? r = some content := by
  obtain ⟨resource, found', same⟩ := frame.instances r content found
  rw [found', same other]

/-- What an instance owns, if it is not the subject. -/
theorem owner_eq (frame : h.Frame subject h') {r : Ref .inst} {resource : Option Resource}
    (owner : h.owner r = some resource) (other : subject ≠ some r) :
    h'.owner r = some resource := by
  obtain ⟨content, found, rfl⟩ := Option.map_eq_some_iff.1 owner
  rw [Heap.owner, frame.get?_eq found other]
  rfl

end Heap.Frame

/-- The second machine differs from the first one in its heap only, and there by a frame. -/
structure Machine.Frame (subject : Option (Ref .inst)) (m m' : Machine) : Prop where
  heap : m.heap.Frame subject m'.heap
  others : m' = { m with heap := m'.heap }

namespace Machine.Frame

variable {subject : Option (Ref .inst)} {m m' m'' : Machine}

theorem of_heap {heap : Heap} (frame : m.heap.Frame subject heap) :
    m.Frame subject { m with heap } := ⟨frame, rfl⟩

theorem refl (subject : Option (Ref .inst)) (m : Machine) : m.Frame subject m :=
  of_heap (.refl subject m.heap)

theorem trans (first : m.Frame subject m') (second : m'.Frame subject m'') :
    m.Frame subject m'' where
  heap := first.heap.trans second.heap
  others := by rw [second.others, first.others]

theorem widen (frame : m.Frame none m') (subject : Option (Ref .inst)) : m.Frame subject m' :=
  ⟨frame.heap.widen subject, frame.others⟩

end Machine.Frame

/-! ### New arrays -/

/-- The second machine has one array more than the first one, which holds the items under a
reference that was not used before. Nothing else differs. -/
structure Machine.AddsArray (r : Ref .array) (items : List Value) (m m' : Machine) : Prop where
  fresh : m.heap.arrays.get? r = none
  added : (m'.heap.arrays.get? r).isSome
  holds : m'.heap.items r = items
  others : ∀ other, other ≠ r → m'.heap.arrays.get? other = m.heap.arrays.get? other
  rest : m' = { m with heap := { m.heap with arrays := m'.heap.arrays } }

theorem Machine.addsArray_newArray (items : List Value) (m : Machine) :
    AddsArray m.heap.nextArray items m { m with heap := (m.heap.newArray items).2 } where
  fresh := m.heap.get?_nextArray
  added := by rw [m.heap.get?_newArray items, Option.isSome_some]
  holds := m.heap.items_newArray items
  others other apart := by
    have old : other.index ≠ m.heap.arrays.size := fun same => apart (congrArg Ref.mk same)
    exact (Cells.get?_alloc _ _ other).trans (if_neg old)
  rest := rfl

/-- An array that is added is no change of what was there before. -/
theorem Machine.AddsArray.frame {r : Ref .array} {items : List Value} {m m' : Machine}
    (adds : AddsArray r items m m') (subject : Option (Ref .inst)) : m.Frame subject m' := by
  rw [adds.rest]
  refine .of_heap { Heap.Frame.refl subject m.heap with arrays := fun other content found => ?_ }
  -- The new reference names nothing before.
  have apart : other ≠ r := by
    rintro rfl
    cases adds.fresh.symm.trans found
  rw [adds.others other apart, found]

/-- The action gives a new array of the items, and changes nothing else. -/
def Action.MakesArray (action : Action Value) (items : List Value) (m : Machine) : Prop :=
  ∃ r m', action.on m = (.ok (.array r), m') ∧ Machine.AddsArray r items m m'

theorem Action.makesArray_of_newArray {action : Action Value} {items : List Value} {m : Machine}
    (same : action.on m = (newArray items).on m) : action.MakesArray items m :=
  ⟨m.heap.nextArray, _, same.trans (on_newArray items m), m.addsArray_newArray items⟩

/-! ### Atomic actions -/

namespace Action

variable {α β : Type} {subject : Option (Ref .inst)} {m : Machine}

/-- The action fails and leaves the machine as it is. -/
def FailsAt (action : Action α) (m : Machine) : Prop :=
  ∃ failure, action.on m = (.error failure, m)

/-- The action gives a value and leaves a machine in the frame of the subject. -/
def SureAt (subject : Option (Ref .inst)) (action : Action α) (m : Machine) : Prop :=
  ∃ a m', action.on m = (.ok a, m') ∧ m.Frame subject m'

/-- The action leaves the machine as it is if it fails, and otherwise leaves one in the frame of the
subject. -/
def AtomicAt (subject : Option (Ref .inst)) (action : Action α) (m : Machine) : Prop :=
  match action.on m with
  | (.ok _, m') => m.Frame subject m'
  | (.error _, m') => m' = m

/-! #### What cannot fail -/

theorem SureAt.atomicAt {action : Action α} (sure : SureAt subject action m) :
    AtomicAt subject action m := by
  obtain ⟨a, m', done, frame⟩ := sure
  rw [AtomicAt, done]
  exact frame

theorem SureAt.bind {action : Action α} {next : α → Action β} (first : SureAt subject action m)
    (second : ∀ a m', m.Frame subject m' → SureAt subject (next a) m') :
    SureAt subject (action >>= next) m := by
  obtain ⟨a, m', done, frame⟩ := first
  obtain ⟨b, m'', done', frame'⟩ := second a m' frame
  exact ⟨b, m'', (Run.on_bind_of_ok done next).trans done', frame.trans frame'⟩

theorem sureAt_pure (a : α) : SureAt subject (pure a) m := ⟨a, m, rfl, .refl subject m⟩

theorem sureAt_modifyHeap {step : Heap → Heap} (frame : m.heap.Frame subject (step m.heap)) :
    SureAt subject (modifyHeap step) m := ⟨(), _, on_modifyHeap step m, .of_heap frame⟩

theorem sureAt_newArray (items : List Value) : SureAt subject (newArray items) m :=
  ⟨_, _, on_newArray items m, .of_heap (.newArray subject m.heap items)⟩

theorem sureAt_newNative (name : String) (action : NativeAction) :
    SureAt subject (newNative name action) m :=
  ⟨_, _, on_onHeap _ m, .of_heap (.newFunction subject m.heap _)⟩

theorem sureAt_mapM {act : α → Action β} (each : ∀ a m, SureAt subject (act a) m)
    (items : List α) (m : Machine) : SureAt subject (items.mapM act) m := by
  induction items generalizing m with
  | nil => exact sureAt_pure []
  | cons item rest ih =>
    rw [List.mapM_cons]
    refine (each item m).bind fun b m' _ => ?_
    exact (ih m').bind fun others _ _ => sureAt_pure _

/-- A new instance of a class with a resource that it did not have before. -/
theorem sureAt_newOwner (cls : Ref .cls) (resource : Resource) (m : Machine) :
    SureAt subject (do
      let r ← onHeap fun h => h.newInstance cls
      attach r resource
      pure (Value.inst r) : Action Value) m := by
  have attached := on_attach (m := { m with heap := (m.heap.newInstance cls).2 })
    (m.heap.bare_newInstance cls) resource
  refine ⟨.inst m.heap.nextInstance, { m with heap := m.heap.newOwner cls resource }, ?_,
    .of_heap (.newOwner subject m.heap cls resource)⟩
  rw [Run.on_bind_of_ok (on_onHeap _ m)]
  exact Run.on_bind_of_ok attached _

/-! #### What checks come to -/

theorem FailsAt.atomicAt {action : Action α} (fails : FailsAt action m) :
    AtomicAt subject action m := by
  obtain ⟨failure, failed⟩ := fails
  rw [AtomicAt, failed]

theorem failsAt_fail (cause : Cause) : FailsAt (fail cause : Action α) m := ⟨_, rfl⟩

theorem failsAt_check_bind {result : Except Cause α} {next : α → Action β}
    (passed : ∀ a, result = .ok a → FailsAt (next a) m) : FailsAt (check result >>= next) m := by
  cases result with
  | ok a => exact passed a rfl
  | error cause => exact ⟨_, rfl⟩

theorem failsAt_viewHeap_bind {view : Heap → Except Cause α} {next : α → Action β}
    (passed : ∀ a, view m.heap = .ok a → FailsAt (next a) m) :
    FailsAt (viewHeap view >>= next) m := by
  obtain ⟨failure, failed⟩ := failsAt_check_bind passed
  exact ⟨failure, by rwa [Run.on_bind, on_viewHeap, ← Run.on_bind]⟩

theorem failsAt_readHeap_bind {view : Heap → α} {next : α → Action β}
    (read : FailsAt (next (view m.heap)) m) : FailsAt (readHeap view >>= next) m := read

theorem atomicAt_check_bind {result : Except Cause α} {next : α → Action β}
    (passed : ∀ a, result = .ok a → AtomicAt subject (next a) m) :
    AtomicAt subject (check result >>= next) m := by
  cases result with
  | ok a => exact passed a rfl
  | error cause => exact FailsAt.atomicAt ⟨_, rfl⟩

theorem atomicAt_viewHeap_bind {view : Heap → Except Cause α} {next : α → Action β}
    (passed : ∀ a, view m.heap = .ok a → AtomicAt subject (next a) m) :
    AtomicAt subject (viewHeap view >>= next) m := by
  have checked := atomicAt_check_bind passed
  rwa [AtomicAt, Run.on_bind, ← on_viewHeap, ← Run.on_bind] at checked

/-- A check that is made for nothing but its failure. -/
theorem atomicAt_discard_bind {view : Heap → Except Cause α} {next : PUnit → Action β}
    (passed : AtomicAt subject (next ⟨⟩) m) :
    AtomicAt subject (discard (viewHeap view) >>= next) m := by
  rw [AtomicAt, Run.on_bind, Run.on_discard, on_viewHeap]
  cases view m.heap with
  | ok a => exact passed
  | error cause => rfl

theorem atomicAt_get_bind {next : Machine → Action β} (read : AtomicAt subject (next m) m) :
    AtomicAt subject (get >>= next) m := read

theorem atomicAt_readHeap_bind {view : Heap → α} {next : α → Action β}
    (read : AtomicAt subject (next (view m.heap)) m) :
    AtomicAt subject (readHeap view >>= next) m := read

/-- An action that is atomic and adds cells at most, and then one that cannot fail. -/
theorem AtomicAt.bind_sure {inner : Option (Ref .inst)} {action : Action α} {next : α → Action β}
    (first : AtomicAt inner action m)
    (second : ∀ a m', m.Frame inner m' → ∃ b m'', (next a).on m' = (.ok b, m'') ∧
      m.Frame subject m'') :
    AtomicAt subject (action >>= next) m := by
  rw [AtomicAt] at first ⊢
  rw [Run.on_bind]
  cases done : action.on m with
  | mk result m' =>
    rw [done] at first
    cases result with
    | error failure => exact first
    | ok a =>
      obtain ⟨b, m'', done', frame⟩ := second a m' first
      simp only [done']
      exact frame

theorem AtomicAt.bind {action : Action α} {next : α → Action β}
    (first : AtomicAt subject action m)
    (second : ∀ a m', m.Frame subject m' → SureAt subject (next a) m') :
    AtomicAt subject (action >>= next) m := by
  refine first.bind_sure fun a m' frame => ?_
  obtain ⟨b, m'', done, frame'⟩ := second a m' frame
  exact ⟨b, m'', done, frame.trans frame'⟩

/-- What an instance owns, if it is not the subject, whether the action succeeds or fails. -/
theorem AtomicAt.owner_eq {action : Action α} (atomic : AtomicAt subject action m)
    {r : Ref .inst} {resource : Option Resource} (owner : m.heap.owner r = some resource)
    (other : subject ≠ some r) : (action.on m).2.heap.owner r = some resource := by
  rw [AtomicAt] at atomic
  cases done : action.on m with
  | mk result m' =>
    rw [done] at atomic
    cases result with
    | ok a => exact atomic.heap.owner_eq owner other
    | error failure =>
      cases atomic
      exact owner

/-! #### Stores -/

section Stores

variable {σ : Type} {type : StoreType σ} {r : Ref .inst}

theorem atomicAt_readStore_bind {operation : String} {view : σ → α} {next : α → Action β}
    (each : ∀ store, AtomicAt subject (next (view store)) m) :
    AtomicAt subject (readStore type operation r view >>= next) m := by
  rw [readStore, bind_assoc]
  exact atomicAt_viewHeap_bind fun store _ => each store

theorem atomicAt_readStore (operation : String) (view : σ → α) :
    AtomicAt subject (readStore type operation r view) m :=
  atomicAt_viewHeap_bind fun _ _ => (sureAt_pure _).atomicAt

theorem atomicAt_useStore (operation : String) (view : σ → α) (step : σ → σ) :
    AtomicAt (some r) (useStore type operation r view step) m := by
  refine (atomicAt_readStore operation view).bind fun a m' _ => ?_
  exact (sureAt_modifyHeap (.changeStore _ type r step)).bind fun _ _ _ => sureAt_pure a

/-- Working on a store that the instance owns cannot fail. -/
theorem sureAt_useStore (lawful : ∀ s, type.project (type.inject s) = some s) {store : σ}
    (owns : m.heap.Owns r (type.inject store)) (operation : String) (view : σ → α)
    (step : σ → σ) : SureAt (some r) (useStore type operation r view step) m :=
  ⟨_, _, on_useStore lawful owns operation view step, .of_heap (.changeStore m.heap type r step)⟩

theorem atomicAt_attach (resource : Resource) : AtomicAt (some r) (attach r resource) m :=
  atomicAt_viewHeap_bind fun _ _ => (sureAt_modifyHeap (.setResource _ r resource)).atomicAt

/-- Attaching fails on an instance that owns a resource. -/
theorem failsAt_attach {owned : Resource} (owns : m.heap.Owns r owned) (resource : Resource) :
    FailsAt (attach r resource) m := by
  refine failsAt_viewHeap_bind fun _ unowned => ?_
  simp [Heap.checkUnowned, Heap.resource_of_owns owns] at unowned

end Stores

end Action

end ScriptCore
