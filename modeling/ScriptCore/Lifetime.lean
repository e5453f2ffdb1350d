import ScriptCore.Fault

/-!
How long instances and their native resources live.

An instance lives as long as something refers to it: a handle, a field of an instance, or a
resource that holds it. When its last reference goes, its resource is torn down first, by the
resource's destructor if it has one, and then its fields are released in insertion order; each may
be the last reference to another instance. Instances that refer to each other in a circle are never
torn down.
-/

namespace ScriptCore.Lifetime

/-- Names an instance. -/
structure InstanceId where
  index : Nat
  deriving DecidableEq, Repr

/-- A native resource; it may have a destructor and may hold an instance. -/
structure Holding where
  tag : String
  hasDestructor : Bool
  held : Option InstanceId := none
  deriving DecidableEq, Repr

/-- An instance with the number of references to it. A field holds an instance or null. -/
structure Owner where
  className : String
  references : Nat
  resource : Option Holding := none
  fields : OrderedIndex String (Option InstanceId) := .empty
  deriving DecidableEq, Repr

instance : Inhabited Owner := ⟨{ className := "", references := 0 }⟩

/-- All instances, the handles to some of them, and what was torn down, most recent first. -/
structure State where
  instances : Array Owner := #[]
  handles : OrderedIndex String InstanceId := .empty
  log : List String := []
  deriving Repr

/-- A step of tearing down. -/
inductive Task where
  | report (text : String)
  | release (id : InstanceId)
  deriving DecidableEq, Repr

namespace Holding

/-- What happens when a resource goes away: it is reported, and what it holds is released. -/
def goAway (resource : Holding) : List Task :=
  .report ("release " ++ resource.tag) :: resource.held.toList.map .release

/-- What happens when the owner of a resource goes: a destructor runs first. -/
def tearDown (resource : Holding) : List Task :=
  (if resource.hasDestructor then [.report ("destroy " ++ resource.tag)] else []) ++
    resource.goAway

end Holding

/-- What happens when the last reference to an instance goes. -/
def Owner.tearDown (owner : Owner) : List Task :=
  (match owner.resource with
    | some resource => resource.tearDown
    | none => []) ++
    owner.fields.values.filterMap fun field => field.map Task.release

namespace State

def owner (s : State) (id : InstanceId) : Owner := s.instances.getD id.index default

def setOwner (s : State) (id : InstanceId) (owner : Owner) : State :=
  { s with instances := s.instances.setIfInBounds id.index owner }

/-- Adds a reference to an instance. -/
def retain (s : State) (id : InstanceId) : State :=
  let owner := s.owner id
  s.setOwner id { owner with references := owner.references + 1 }

/-- Adds a reference to an instance, if there is one. -/
def retain? (s : State) (id : Option InstanceId) : State :=
  match id with
  | some id => s.retain id
  | none => s

/-- Works through the steps of tearing down, depth first. -/
def work : Nat → List Task → State → State
  | 0, _, s => s
  | _, [], s => s
  | steps + 1, .report text :: rest, s => work steps rest { s with log := text :: s.log }
  | steps + 1, .release id :: rest, s =>
    let owner := s.owner id
    if owner.references ≤ 1 then
      work steps (owner.tearDown ++ rest)
        (s.setOwner id { className := owner.className, references := 0 })
    else work steps rest (s.setOwner id { owner with references := owner.references - 1 })

/-- Enough steps to work through tasks: each release uses up a reference, and each instance reports
at most twice. -/
def stepBound (s : State) (tasks : List Task) : Nat :=
  s.instances.toList.foldr (fun owner n => owner.references + n) 0 + 2 * s.instances.size +
    tasks.length + 1

/-- Works through steps of tearing down to the end. -/
def finish (s : State) (tasks : List Task) : State := work (s.stepBound tasks) tasks s

/-- Releases a reference, if there is one. -/
def release? (s : State) (id : Option InstanceId) : State :=
  s.finish (id.toList.map .release)

/-! ### Operations -/

/-- The instance that a handle refers to. -/
def deref? (s : State) (handle : String) : Option InstanceId := s.handles.get? handle

/-- Makes a handle refer to an instance, by a reference that is counted already. -/
def point (s : State) (handle : String) (id : InstanceId) : State :=
  let (old, handles) := s.handles.insert handle id
  { s with handles }.release? old

/-- Makes a handle refer to a new instance of a class. -/
def create (s : State) (handle className : String) : State :=
  let id : InstanceId := ⟨s.instances.size⟩
  { s with instances := s.instances.push { className, references := 1 } }.point handle id

/-- Makes a handle refer to an instance as well. -/
def share (s : State) (handle : String) (id : InstanceId) : State := (s.retain id).point handle id

/-- Removes a handle. -/
def drop (s : State) (handle : String) : State :=
  let (old, handles) := s.handles.erase handle
  { s with handles }.release? old

/-- Gives an instance a new resource. If it owns one already, the new one goes away, without its
destructor. -/
def attach (s : State) (id : InstanceId) (resource : Holding) : Except Cause Unit × State :=
  let s := s.retain? resource.held
  let owner := s.owner id
  match owner.resource with
  | some _ => (.error (.alreadyOwns owner.className), s.finish resource.goAway)
  | none => (.ok (), s.setOwner id { owner with resource := some resource })

/-- The resource of an instance, for an operation that needs one. -/
def resource (s : State) (id : InstanceId) (operation : String) : Except Cause Holding :=
  let owner := s.owner id
  match owner.resource with
  | some resource => .ok resource
  | none => .error (.typeMismatch operation "Resource" owner.className)

/-- Sets a field of an instance and releases what the field held. -/
def setField (s : State) (id : InstanceId) (name : String) (value : Option InstanceId) : State :=
  let s := s.retain? value
  let owner := s.owner id
  let (old, fields) := owner.fields.insert name value
  (s.setOwner id { owner with fields }).release? old.join

end State

end ScriptCore.Lifetime
