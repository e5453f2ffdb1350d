import ScriptCore.Callable
import ScriptCore.Store.Mapping
import ScriptCore.Store.Members
import ScriptCore.Store.Sequence
import ScriptCore.Store.Priority
import ScriptCore.Store.Listeners

/-!
Native resources: the one store that an instance of a native class owns.

A `StoreType` tells how a store of one type is kept as a resource, so that an operation on stores
of that type is written once, over the type.
-/

namespace ScriptCore

/-- A store that an instance owns. -/
inductive Resource where
  | map (store : MapStore)
  | set (store : SetStore)
  | stack (store : StackStore)
  | deque (store : DequeStore)
  | priority (store : PriorityStore)
  | listeners (table : ListenerTable (Ref .function))
  | token
  deriving DecidableEq, Repr

namespace Resource

def kind : Resource → ResourceKind
  | map _ => .map
  | set _ => .set
  | stack _ => .stack
  | deque _ => .deque
  | priority _ => .priority
  | listeners _ => .listeners
  | token => .token

/-- How many things the store holds. -/
def size : Resource → Nat
  | map store => store.size
  | set store => store.size
  | stack store => store.size
  | deque store => store.size
  | priority store => store.size
  | listeners table => table.size
  | token => 0

/-- A resource of the given kind that holds nothing. -/
def fresh : ResourceKind → Resource
  | .map => map .empty
  | .set => set .empty
  | .stack => stack .empty
  | .deque => deque .empty
  | .priority => priority (.empty .min)
  | .listeners => listeners .empty
  | .token => token

end Resource

/-- A type of stores among the resources. -/
structure StoreType (σ : Type) where
  kind : ResourceKind
  inject : σ → Resource
  project : Resource → Option σ

namespace StoreType

/-- Changes a resource that is a store of the type, and no other. -/
def change {σ : Type} (type : StoreType σ) (step : σ → σ) (resource : Resource) : Resource :=
  match type.project resource with
  | some store => type.inject (step store)
  | none => resource

def map : StoreType MapStore :=
  ⟨.map, .map, fun | .map store => some store | _ => none⟩

def set : StoreType SetStore :=
  ⟨.set, .set, fun | .set store => some store | _ => none⟩

def stack : StoreType StackStore :=
  ⟨.stack, .stack, fun | .stack store => some store | _ => none⟩

def deque : StoreType DequeStore :=
  ⟨.deque, .deque, fun | .deque store => some store | _ => none⟩

def priority : StoreType PriorityStore :=
  ⟨.priority, .priority, fun | .priority store => some store | _ => none⟩

def listeners : StoreType (ListenerTable (Ref .function)) :=
  ⟨.listeners, .listeners, fun | .listeners table => some table | _ => none⟩

end StoreType

end ScriptCore
