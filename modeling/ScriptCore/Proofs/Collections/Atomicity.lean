import ScriptCore.Proofs.Collections.Calls
import ScriptCore.Proofs.Collections.Listeners
import ScriptCore.Proofs.Frames

/-!
The methods of the native classes are atomic.

A method of a collection or of an event bus that calls no function back, and connecting a bus,
either fails and leaves the machine as it is, or succeeds and changes no cell that was there before
but the resource of its receiver, or of the sender that is connected. This holds on every receiver
and for all arguments: each of them checks everything before it changes anything.
-/

namespace ScriptCore

open ScriptCore.Action hiding atomicAt_readStore atomicAt_readStore_bind atomicAt_useStore

/-! ### Receivers -/

/-- The instance that a value refers to, if it is one. -/
def Value.instance? : Option Value → Option (Ref .inst)
  | some (.inst r) => some r
  | _ => none

namespace Native

variable {α β σ : Type} {type : StoreType σ} {label : String} {this : Option Value} {m : Machine}

theorem atomicAt_receiver_bind {next : Ref .inst → Action β}
    (each : ∀ r, this = some (.inst r) → AtomicAt (some r) (next r) m) :
    AtomicAt (Value.instance? this) (check (Arguments.receiver label this) >>= next) m := by
  refine atomicAt_check_bind fun r received => ?_
  have same : this = some (.inst r) := by
    unfold Arguments.receiver at received
    split at received <;> simp_all
  rw [same]
  exact each r same

theorem atomicAt_attachToReceiver (resource : Resource) :
    AtomicAt (Value.instance? this) (attachToReceiver label this resource) m :=
  atomicAt_receiver_bind fun _ _ =>
    (atomicAt_attach resource).bind fun _ _ _ => sureAt_pure _

theorem atomicAt_useStore {view : σ → α} {step : σ → σ} :
    AtomicAt (Value.instance? this) (useStore type label this view step) m :=
  atomicAt_receiver_bind fun _ _ => Action.atomicAt_useStore label view step

theorem atomicAt_readStore {view : σ → α} :
    AtomicAt (Value.instance? this) (readStore type label this view) m :=
  atomicAt_receiver_bind fun _ _ => Action.atomicAt_readStore label view

theorem atomicAt_readStore_bind {subject : Option (Ref .inst)} {view : σ → α} {next : α → Action β}
    (each : ∀ store, AtomicAt subject (next (view store)) m) :
    AtomicAt subject (readStore type label this view >>= next) m := by
  rw [readStore, bind_assoc]
  exact atomicAt_check_bind fun _ _ => Action.atomicAt_readStore_bind each

/-- Listing what a store has is reading, and then a new array. -/
theorem atomicAt_listing {subject : Option (Ref .inst)} {view : σ → List Value} :
    AtomicAt subject (readStore type label this view >>= newArray) m :=
  atomicAt_readStore_bind fun _ => (sureAt_newArray _).atomicAt

/-- An instance that owns a resource is refused another one. -/
theorem failsAt_attachToReceiver {r : Ref .inst} {owned : Resource} (owns : m.heap.Owns r owned)
    (resource : Resource) : FailsAt (attachToReceiver label (some (.inst r)) resource) m := by
  refine failsAt_check_bind fun s received => ?_
  obtain rfl : r = s := Except.ok.inj received
  obtain ⟨failure, failed⟩ := failsAt_attach owns resource
  exact ⟨failure, by rw [Run.on_bind, failed]⟩

end Native

open Native

/-! ### The methods -/

section Methods

variable (re : Reentry) (this : Option Value) (args : List Value) (m : Machine)

theorem MapMethod.atomicAt_call {method : MapMethod} (silent : method ≠ .forEach) :
    AtomicAt (Value.instance? this) (method.call re this args) m := by
  unfold MapMethod.call
  cases method with
  | construct =>
    refine atomicAt_check_bind fun _ _ => atomicAt_viewHeap_bind fun store _ => ?_
    exact atomicAt_attachToReceiver (.map store)
  | set =>
    refine atomicAt_check_bind fun _ _ => atomicAt_readHeap_bind ?_
    exact atomicAt_receiver_bind fun r _ => Action.atomicAt_useStore _ _ _
  | get | has => exact atomicAt_check_bind fun _ _ => atomicAt_readHeap_bind atomicAt_readStore
  | delete => exact atomicAt_check_bind fun _ _ => atomicAt_readHeap_bind atomicAt_useStore
  | size => exact atomicAt_check_bind fun _ _ => atomicAt_readStore
  | clear => exact atomicAt_check_bind fun _ _ => atomicAt_useStore
  | keys | values => exact atomicAt_check_bind fun _ _ => atomicAt_listing
  | entries =>
    refine atomicAt_check_bind fun _ _ => atomicAt_readStore_bind fun store => ?_
    have row (pair : Value × Value) (m : Machine) :
        SureAt (Value.instance? this) (newArray [pair.1, pair.2]) m := sureAt_newArray _
    have rows := sureAt_mapM row store.pairs m
    exact (rows.bind fun rows _ _ => sureAt_newArray rows).atomicAt
  | forEach => exact absurd rfl silent

theorem SetMethod.atomicAt_call {method : SetMethod} (silent : method ≠ .forEach) :
    AtomicAt (Value.instance? this) (method.call re this args) m := by
  unfold SetMethod.call
  cases method with
  | construct =>
    refine atomicAt_check_bind fun _ _ => atomicAt_viewHeap_bind fun store _ => ?_
    exact atomicAt_attachToReceiver (.set store)
  | add =>
    refine atomicAt_check_bind fun _ _ => atomicAt_readHeap_bind ?_
    exact atomicAt_receiver_bind fun r _ => Action.atomicAt_useStore _ _ _
  | has => exact atomicAt_check_bind fun _ _ => atomicAt_readHeap_bind atomicAt_readStore
  | delete => exact atomicAt_check_bind fun _ _ => atomicAt_readHeap_bind atomicAt_useStore
  | size => exact atomicAt_check_bind fun _ _ => atomicAt_readStore
  | clear => exact atomicAt_check_bind fun _ _ => atomicAt_useStore
  | values => exact atomicAt_check_bind fun _ _ => atomicAt_listing
  | forEach => exact absurd rfl silent

/-- Combining two Sets changes neither: the store that it makes belongs to a new instance. -/
theorem SetAlgebra.atomicAt_call (operation : SetAlgebra) (cls : Ref .cls)
    (subject : Option (Ref .inst)) : AtomicAt subject (operation.call re cls this args) m := by
  unfold SetAlgebra.call
  refine atomicAt_check_bind fun _ _ => atomicAt_get_bind ?_
  refine atomicAt_check_bind fun other _ => atomicAt_readStore_bind fun mine => ?_
  refine atomicAt_viewHeap_bind fun theirs _ => atomicAt_readHeap_bind ?_
  exact (sureAt_newOwner cls _ m).atomicAt

theorem StackMethod.atomicAt_call (method : StackMethod) :
    AtomicAt (Value.instance? this) (method.call this args) m := by
  unfold StackMethod.call
  refine atomicAt_check_bind fun _ _ => ?_
  cases method with
  | construct => exact atomicAt_attachToReceiver (.stack .empty)
  | push | pop | clear => exact atomicAt_useStore
  | peek | size | isEmpty => exact atomicAt_readStore
  | toArray => exact atomicAt_listing

theorem DequeMethod.atomicAt_call (method : DequeMethod) :
    AtomicAt (Value.instance? this) (method.call this args) m := by
  unfold DequeMethod.call
  refine atomicAt_check_bind fun _ _ => ?_
  cases method with
  | construct => exact atomicAt_attachToReceiver (.deque .empty)
  | push | pop | unshift | shift | clear => exact atomicAt_useStore
  | peekFront | peekBack | size | isEmpty => exact atomicAt_readStore
  | toArray => exact atomicAt_listing

theorem QueueMethod.atomicAt_call (method : QueueMethod) :
    AtomicAt (Value.instance? this) (method.call this args) m := by
  unfold QueueMethod.call
  refine atomicAt_check_bind fun _ _ => ?_
  cases method with
  | construct => exact atomicAt_check_bind fun order _ => atomicAt_attachToReceiver _
  | push => exact atomicAt_check_bind fun priority _ => atomicAt_useStore
  | pop | clear => exact atomicAt_useStore
  | peek | size | isEmpty => exact atomicAt_readStore

theorem BusMethod.atomicAt_call {method : BusMethod} (silent : method ≠ .emit) :
    AtomicAt (Value.instance? this) (method.call re this args) m := by
  unfold BusMethod.call
  refine atomicAt_check_bind fun _ _ => ?_
  cases method with
  | construct => exact atomicAt_attachToReceiver (.listeners .empty)
  | receive =>
    exact atomicAt_check_bind fun _ _ => atomicAt_check_bind fun _ _ => atomicAt_useStore
  | emit => exact absurd rfl silent
  | off => exact atomicAt_check_bind fun _ _ => atomicAt_check_bind fun _ _ => atomicAt_useStore
  | listenerCount => exact atomicAt_check_bind fun _ _ => atomicAt_readStore
  | signals => exact atomicAt_readStore_bind fun _ => (sureAt_newArray _).atomicAt

/-! ### Connecting -/

/-- An instance that has a listener table owns it. -/
theorem Heap.owns_of_store? {h : Heap} {r : Ref .inst} {table : ListenerTable (Ref .function)}
    (store : h.store? .listeners r = some table) : h.Owns r (.listeners table) := by
  obtain ⟨resource, owned, isTable⟩ := Option.bind_eq_some_iff.1 store
  have listeners : resource = .listeners table := by
    cases resource with
    | listeners table => exact congrArg Resource.listeners (Option.some.inj isTable)
    | _ => cases isTable
  rw [inst] at owned
  cases found : h.instances.get? r with
  | none =>
    rw [found] at owned
    cases owned
  | some content =>
    rw [found] at owned
    rw [Owns, owner, found, ← listeners]
    exact congrArg some owned

namespace Connection

/-- Making the listener of a slot adds a function at most. -/
theorem atomicAt_slotListener (subject : Option (Ref .inst)) (receiver slot : Value) :
    AtomicAt subject (slotListener receiver slot) m := by
  unfold slotListener
  split
  · exact atomicAt_viewHeap_bind fun method _ => (sureAt_newNative _ _).atomicAt
  · exact (sureAt_pure _).atomicAt
  · exact (failsAt_fail _).atomicAt

theorem busArgument_eq_ok {h : Heap} {role : String} {arg : Value} {r : Ref .inst}
    (accepted : busArgument h role arg = .ok r) :
    arg = .inst r ∧ ∃ table, h.Owns r (.listeners table) := by
  cases arg with
  | inst s =>
    rw [busArgument] at accepted
    split at accepted
    · rename_i table store
      obtain rfl : s = r := Except.ok.inj accepted
      exact ⟨rfl, table, Heap.owns_of_store? store⟩
    · cases accepted
  | _ => cases accepted

/-- The listener is made before the table changes, and making it leaves the table there. -/
theorem atomicAt_connect : AtomicAt (Value.instance? args[0]?) (connect args) m := by
  unfold connect
  refine atomicAt_check_bind fun _ counted => ?_
  refine atomicAt_viewHeap_bind fun sender accepted => atomicAt_check_bind fun signal _ => ?_
  obtain ⟨isSender, table, owns⟩ := busArgument_eq_ok accepted
  have subject : Value.instance? args[0]? = some sender := by
    rw [List.getD_eq_getElem?_getD] at isSender
    cases first : args[0]? <;> simp_all [Value.instance?]
  rw [subject]
  refine atomicAt_discard_bind ((atomicAt_slotListener m none _ _).bind_sure fun f m' frame => ?_)
  have owns' : m'.heap.Owns sender (.listeners table) := frame.heap.owner_eq owns nofun
  obtain ⟨v, m'', done, frame'⟩ := sureAt_useStore ListenerTable.lawful owns' "connect"
    (fun _ => Value.null) fun table => table.add signal f
  exact ⟨v, m'', done, (frame.widen _).trans frame'⟩

end Connection

end Methods

/-! ### Constructors -/

/-- An item of an array that is not an array of two elements is no pair. -/
theorem MapStore.ofPairs_of_malformed {h : Heap} {items : List Value} {item : Value}
    (member : item ∈ items) (malformed : ∀ q, item = .array q → (h.items q).length ≠ 2)
    (label : String) : ∃ cause, ofPairs h label items = .error cause := by
  have noPair : ∃ cause, pairOf h label item = .error cause := by
    unfold pairOf
    split
    · rename_i q
      split
      · rename_i two
        exact absurd (congrArg List.length two) (malformed q rfl)
      · exact ⟨_, rfl⟩
    · exact ⟨_, rfl⟩
  obtain ⟨cause, noPair⟩ := noPair
  unfold ofPairs
  generalize MapStore.empty = store
  induction items generalizing store with
  | nil => cases member
  | cons first rest ih =>
    rw [List.foldlM_cons]
    cases pair : pairOf h label first with
    | error cause => exact ⟨cause, rfl⟩
    | ok pair' =>
      cases member with
      | head => cases noPair.symm.trans pair
      | tail _ later => exact ih later _

/-! ### Every operation -/

namespace NativeAction

/-- The methods of the native classes that call no function back, and connecting. -/
def isStoreOperation : NativeAction → Bool
  | map method => method ≠ .forEach
  | set method => method ≠ .forEach
  | bus method => method ≠ .emit
  | setAlgebra .. | stack _ | deque _ | queue _ | connect => true
  | _ => false

/-- The constructors of the native classes. -/
def isConstructor : NativeAction → Bool
  | map .construct | set .construct | stack .construct | deque .construct | queue .construct
  | bus .construct => true
  | _ => false

/-- The instance whose resource an operation may change: the receiver, or the sender that is
connected. -/
def subject (action : NativeAction) (this : Option Value) (args : List Value) :
    Option (Ref .inst) :=
  match action with
  | connect => Value.instance? args[0]?
  | _ => Value.instance? this

end NativeAction

namespace Interpreter

variable (re : Reentry) {action : NativeAction} (scope : Ref .scope) (args : List Value)
  (m : Machine)

theorem atomicAt_performNative (silent : action.isStoreOperation) :
    AtomicAt (action.subject (m.heap.lookupLocal scope receiverName) args)
      (performNative re action scope args) m := by
  refine atomicAt_readHeap_bind ?_
  cases action with
  | map method => exact MapMethod.atomicAt_call re _ args m (of_decide_eq_true silent)
  | set method => exact SetMethod.atomicAt_call re _ args m (of_decide_eq_true silent)
  | bus method => exact BusMethod.atomicAt_call re _ args m (of_decide_eq_true silent)
  | setAlgebra operation cls => exact SetAlgebra.atomicAt_call re _ args m operation cls _
  | stack method => exact method.atomicAt_call _ args m
  | deque method => exact method.atomicAt_call _ args m
  | queue method => exact method.atomicAt_call _ args m
  | connect => exact Connection.atomicAt_connect args m
  | _ => cases silent

/-- A constructor that is bound to an instance with a resource fails, whatever its arguments. -/
theorem failsAt_performNative_of_owns (constructor : action.isConstructor) {r : Ref .inst}
    {owned : Resource} (bound : m.heap.lookupLocal scope receiverName = some (.inst r))
    (owns : m.heap.Owns r owned) : FailsAt (performNative re action scope args) m := by
  refine failsAt_readHeap_bind ?_
  rw [bound]
  unfold NativeAction.isConstructor at constructor
  split at constructor
  · exact failsAt_check_bind fun _ _ => failsAt_viewHeap_bind fun store _ =>
      failsAt_attachToReceiver owns _
  · exact failsAt_check_bind fun _ _ => failsAt_viewHeap_bind fun store _ =>
      failsAt_attachToReceiver owns _
  · exact failsAt_check_bind fun _ _ => failsAt_attachToReceiver owns _
  · exact failsAt_check_bind fun _ _ => failsAt_attachToReceiver owns _
  · exact failsAt_check_bind fun _ _ => failsAt_check_bind fun order _ =>
      failsAt_attachToReceiver owns _
  · exact failsAt_check_bind fun _ _ => failsAt_attachToReceiver owns _
  · cases constructor

/-- The constructor of Map fails on an array with an item that is no pair. -/
theorem failsAt_performNative_of_malformed {p : Ref .array} {item : Value}
    (member : item ∈ m.heap.items p)
    (malformed : ∀ q, item = .array q → (m.heap.items q).length ≠ 2) :
    FailsAt (performNative re (.map .construct) scope [.array p]) m := by
  refine failsAt_readHeap_bind (failsAt_check_bind fun _ _ => ?_)
  refine failsAt_viewHeap_bind fun store stored => ?_
  obtain ⟨cause, failed⟩ := MapStore.ofPairs_of_malformed member malformed
    MapMethod.construct.label
  cases failed.symm.trans stored

/-- An operation of the native classes that calls no function back, and connecting, leaves the
machine as it is when it fails, whatever its receiver and its arguments; when it succeeds, nothing
that was there before has changed but the resource of the receiver, or of the sender. A constructor
fails on an instance that owns a resource, and that of Map on an item that is no pair. -/
theorem storeOperation_atomic (silent : action.isStoreOperation) :
    let run := (performNative re action scope args).on m
    let this := m.heap.lookupLocal scope receiverName
    (∀ failure, run.1 = .error failure → run.2 = m) ∧
    (∀ v, run.1 = .ok v → m.Frame (action.subject this args) run.2) ∧
    (action.isConstructor → ∀ r owned, this = some (.inst r) → m.heap.Owns r owned →
      ∃ failure, run = (.error failure, m)) ∧
    ∀ p item, action = .map .construct → args = [.array p] → item ∈ m.heap.items p →
      (∀ q, item = .array q → (m.heap.items q).length ≠ 2) →
        ∃ failure, run = (.error failure, m) := by
  have atomic := atomicAt_performNative re scope args m silent
  rw [AtomicAt] at atomic
  refine ⟨fun failure failed => ?_, fun v done => ?_, fun constructor r owned bound owns => ?_, ?_⟩
  · split at atomic
    · rename_i shape
      rw [shape] at failed
      cases failed
    · rename_i shape
      rw [shape]
      exact atomic
  · split at atomic
    · rename_i shape
      rw [shape]
      exact atomic
    · rename_i shape
      rw [shape] at done
      cases done
  · exact failsAt_performNative_of_owns re scope args m constructor bound owns
  · rintro p item rfl rfl member malformed
    exact failsAt_performNative_of_malformed re scope m member malformed

/-- A machine with a Map, and a scope in which the Map is the receiver. -/
def mapped : Machine := .fresh
  { instances := ⟨#[{ cls := ⟨0⟩, resource := some (.map (.insert .empty .null .null .null)) }]⟩
    scopes := ⟨#[{ bindings := .ofList [(receiverName, .inst ⟨0⟩)] }]⟩ }

/-- The Map cannot be constructed again, and setting a key changes it alone. -/
theorem storeOperation_atomic_mapped :
    (∃ failure, (performNative .idle (.map .construct) ⟨0⟩ []).on mapped =
      (.error failure, mapped)) ∧
    ∃ m', (performNative .idle (.map .set) ⟨0⟩ [.null, .boolean true]).on mapped =
        (.ok (.inst ⟨0⟩), m') ∧ mapped.Frame (some ⟨0⟩) m' := by
  have receiver : mapped.heap.lookupLocal ⟨0⟩ receiverName = some (.inst ⟨0⟩) := rfl
  have constructs : (NativeAction.map .construct).isStoreOperation := rfl
  have sets : (NativeAction.map .set).isStoreOperation := rfl
  obtain ⟨-, -, refuses, -⟩ := storeOperation_atomic .idle ⟨0⟩ [] mapped constructs
  obtain ⟨-, frames, -⟩ := storeOperation_atomic .idle ⟨0⟩ [.null, .boolean true] mapped sets
  have frame := frames (.inst ⟨0⟩) rfl
  rw [receiver] at frame
  exact ⟨refuses rfl ⟨0⟩ _ receiver rfl, _, rfl, frame⟩

end Interpreter

end ScriptCore
