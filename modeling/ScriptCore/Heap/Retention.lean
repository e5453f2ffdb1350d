import ScriptCore.Heap.Basic
import Std.Data.HashSet.Basic

/-!
What keeps a cell in use.

Cells are given back by counting references: a cell is in use as long as a root or a cell in use
refers to it. Cells that refer to each other in a circle therefore stay in use after the last root
has let go of them. Each cell knows which cells it refers to; among those the methods of set
algebra do not count the class that they belong to.
-/

namespace ScriptCore

/-- The cells that values refer to. -/
def Value.referents (values : List Value) : List Identity := values.filterMap Value.identity

/-- The cells that the content of a table refers to. -/
def Table.referents (table : Table) : List Identity := Value.referents table.values

/-- The cells that a native function refers to. -/
def NativeAction.referents : NativeAction → List Identity
  | constructs cls => [cls.identity]
  | bound method receiver => method.identity :: Value.referents [receiver]
  | _ => []

/-- The cells that a function refers to. -/
def Callable.referents : Callable → List Identity
  | native _ action => action.referents
  | script _ _ _ closure _ => [closure.identity]

/-- The cells that a class refers to. -/
def ClassInfo.referents (info : ClassInfo) : List Identity := info.methods.values.map Ref.identity

/-- The cells that a native resource refers to. -/
def Resource.referents : Resource → List Identity
  | map store => Value.referents (store.keys ++ store.values)
  | set store => Value.referents store.values
  | stack store => Value.referents store.items
  | deque store => Value.referents store.items
  | priority store => Value.referents (store.entries.map QueueEntry.value)
  | listeners table => table.registrations.values.flatten.map Ref.identity
  | token => []

/-- The cells that an instance refers to. -/
def Instance.referents (content : Instance) : List Identity :=
  content.cls.identity :: Table.referents content.fields ++
    content.resource.toList.flatMap Resource.referents

/-- The cells that a scope refers to. -/
def Scope.referents (scope : Scope) : List Identity :=
  Table.referents scope.bindings ++ scope.parent.toList.map Ref.identity

namespace Heap

/-- The cells that a cell refers to. -/
def referents (h : Heap) (cell : Identity) : List Identity :=
  match cell.kind with
  | .array => Value.referents (h.items ⟨cell.index⟩)
  | .object => Table.referents (h.entries ⟨cell.index⟩)
  | .function => (h.callable ⟨cell.index⟩).referents
  | .cls => (h.classInfo ⟨cell.index⟩).referents
  | .inst => (h.inst ⟨cell.index⟩).referents
  | .promise => Value.referents (h.promise ⟨cell.index⟩).value?.toList
  | .scope => (h.scope ⟨cell.index⟩).referents

/-- All cells of a row. -/
def row (kind : CellKind) (size : Nat) : List Identity := (List.range size).map fun i => ⟨kind, i⟩

/-- All cells of the heap. -/
def cells (h : Heap) : List Identity :=
  row .array h.arrays.size ++ row .object h.objects.size ++ row .function h.functions.size ++
    row .cls h.classes.size ++ row .inst h.instances.size ++ row .promise h.promises.size ++
    row .scope h.scopes.size

/-- The cells of a list that are roots or referred to by a cell of the list. -/
def referred (h : Heap) (roots among : List Identity) : List Identity :=
  let counted := Std.HashSet.ofList (roots ++ among.flatMap h.referents)
  among.filter counted.contains

/-- Gives back the cells of a list that nothing counts for, until there are none or for at most so
many rounds. -/
def retainedAmong (h : Heap) (roots : List Identity) : Nat → List Identity → List Identity
  | 0, among => among
  | rounds + 1, among =>
    let kept := h.referred roots among
    if kept.length = among.length then among else retainedAmong h roots rounds kept

/-- The cells in use. Every round but the last gives a cell back, so there are no more rounds than
cells. -/
def retained (h : Heap) (roots : List Identity) : List Identity :=
  h.retainedAmong roots h.cells.length h.cells

/-- Whether a cell is in use. A root is so whatever else there is. -/
def inUse (h : Heap) (roots : List Identity) (cell : Identity) : Bool :=
  decide (cell ∈ roots) || decide (cell ∈ h.retained roots)

end Heap

end ScriptCore
