import ScriptCore.Proofs.Collections.Calls
import ScriptCore.Proofs.Scopes.Writes

/-!
Runs of commands on scopes follow their past.

Scopes are made at the root or below another one, and names are defined, assigned, looked up and
read from any of them. What such a run answers is told by its past alone: which parent each scope
was given, and what was written to which scope, the latest first. A name that is looked up gives
what was written last to the nearest scope that was written to under this name; assigning writes to
that scope, and fails if there is none.
-/

namespace ScriptCore

/-! ### Commands -/

/-- A command on scopes. -/
inductive ScopeCommand where
  | newRoot
  | child (parent : Ref .scope)
  | define (s : Ref .scope) (name : String) (v : Value)
  | assign (s : Ref .scope) (name : String) (v : Value)
  | lookup (s : Ref .scope) (name : String)
  | get (s : Ref .scope) (name : String)

/-- What a command on scopes gives back. -/
inductive ScopeReply where
  | scope (s : Ref .scope)
  | done
  | found (v : Option Value)
  deriving DecidableEq, Repr

namespace ScopeCommand

/-- How a command is carried out. -/
def action : ScopeCommand → Action ScopeReply
  | newRoot => .scope <$> Action.onHeap Heap.newScope
  | child parent => .scope <$> Action.onHeap fun h => h.childScope parent
  | define s name v => (fun _ => .done) <$> Action.modifyHeap fun h => h.define s name v
  | assign s name v => (fun _ => .done) <$> Action.assign s name v
  | lookup s name => .found <$> Action.readHeap fun h => h.lookup s name
  | get s name => (fun v => .found (some v)) <$> Action.viewHeap fun h => h.readName s name

def onMachine (command : ScopeCommand) (m : Machine) : Except Failure ScopeReply × Machine :=
  command.action.on m

/-- The command is about one of the first so many scopes. -/
def Within (count : Nat) : ScopeCommand → Prop
  | newRoot => True
  | child s | define s _ _ | assign s _ _ | lookup s _ | get s _ => s.index < count

/-- How many scopes there are after a command, of so many before. -/
def countAfter (count : Nat) : ScopeCommand → Nat
  | newRoot | child _ => count + 1
  | _ => count

/-- Every command of a run is about scopes that there are by then. -/
def AllWithin : Nat → List ScopeCommand → Prop
  | _, [] => True
  | count, command :: rest => command.Within count ∧ AllWithin (command.countAfter count) rest

end ScopeCommand

/-! ### The past of a run -/

/-- What happened to the scopes. -/
structure ScopePast where
  /-- The parent that each scope was given, in the order in which they were made. -/
  parents : List (Option (Ref .scope))
  /-- What was written, the latest first: to which scope and under which name. -/
  writes : List ((Ref .scope × String) × Value)

namespace ScopePast

variable (past : ScopePast)

def parent (s : Ref .scope) : Option (Ref .scope) := past.parents[s.index]?.join

/-- What was written last to the scope itself under the name. -/
def lastWritten (s : Ref .scope) (name : String) : Option Value := past.writes.lookup (s, name)

/-- Something was written to the scope itself under the name. -/
def Binds (name : String) (s : Ref .scope) : Prop := ∃ v, ((s, name), v) ∈ past.writes

/-- The next scope that is made. -/
def next : Ref .scope := ⟨past.parents.length⟩

def made (parent : Option (Ref .scope)) : ScopePast :=
  { past with parents := past.parents ++ [parent] }

def written (s : Ref .scope) (name : String) (v : Value) : ScopePast :=
  { past with writes := ((s, name), v) :: past.writes }

/-- Nothing has happened. -/
def none : ScopePast := { parents := [], writes := [] }

/-- A name that no scope up to the root binds. -/
def undefined (name : String) : Failure := .fault { cause := .undefinedVariable name }

/-- What a command answers after a past, and what is then past. -/
inductive Takes (past : ScopePast) :
    ScopeCommand → Except Failure ScopeReply → ScopePast → Prop where
  | newRoot : Takes past .newRoot (.ok (.scope past.next)) (past.made Option.none)
  | child (p : Ref .scope) : Takes past (.child p) (.ok (.scope past.next)) (past.made (some p))
  | define (s : Ref .scope) (name : String) (v : Value) :
    Takes past (.define s name v) (.ok .done) (past.written s name v)
  | assign {s b : Ref .scope} {name : String} (v : Value)
    (nearest : Nearest past.parent (past.Binds name) s b) :
    Takes past (.assign s name v) (.ok .done) (past.written b name v)
  | assignUnbound {s : Ref .scope} {name : String} (v : Value)
    (unbound : Unbound past.parent (past.Binds name) s) :
    Takes past (.assign s name v) (.error (undefined name)) past
  | lookup {s b : Ref .scope} {name : String} {v : Value}
    (nearest : Nearest past.parent (past.Binds name) s b)
    (last : past.lastWritten b name = some v) :
    Takes past (.lookup s name) (.ok (.found (some v))) past
  | lookupUnbound {s : Ref .scope} {name : String}
    (unbound : Unbound past.parent (past.Binds name) s) :
    Takes past (.lookup s name) (.ok (.found Option.none)) past
  | get {s b : Ref .scope} {name : String} {v : Value}
    (nearest : Nearest past.parent (past.Binds name) s b)
    (last : past.lastWritten b name = some v) :
    Takes past (.get s name) (.ok (.found (some v))) past
  | getUnbound {s : Ref .scope} {name : String}
    (unbound : Unbound past.parent (past.Binds name) s) :
    Takes past (.get s name) (.error (undefined name)) past

/-- What commands answer one after another. -/
inductive Follows : ScopePast → List ScopeCommand → List (Except Failure ScopeReply) → ScopePast →
    Prop where
  | nil (past : ScopePast) : Follows past [] [] past
  | cons {past past' last : ScopePast} {command : ScopeCommand} {rest : List ScopeCommand}
    {answer : Except Failure ScopeReply} {answers : List (Except Failure ScopeReply)}
    (first : past.Takes command answer past') (others : Follows past' rest answers last) :
    Follows past (command :: rest) (answer :: answers) last

theorem isSome_lastWritten (s : Ref .scope) (name : String) :
    (past.lastWritten s name).isSome = true ↔ past.Binds name s := by
  rw [lastWritten, Binds]
  induction past.writes with
  | nil => simp
  | cons write rest ih =>
    obtain ⟨key, v⟩ := write
    by_cases same : (s, name) = key
    · subst same
      simp
    · have other : ((s, name) == key) = false := beq_eq_false_iff_ne.2 same
      simp [List.lookup_cons, other, ih, same]

theorem parent_made (parent : Option (Ref .scope)) (s : Ref .scope) :
    (past.made parent).parent s =
      if s.index = past.parents.length then parent else past.parent s := by
  rw [ScopePast.parent, made, List.getElem?_append]
  rcases Nat.lt_trichotomy s.index past.parents.length with less | same | more
  · rw [if_pos less, if_neg (Nat.ne_of_lt less), ScopePast.parent]
  · simp [same]
  · have beyond : 1 ≤ s.index - past.parents.length := Nat.sub_pos_of_lt more
    rw [if_neg (Nat.lt_asymm more), if_neg (Nat.ne_of_gt more), ScopePast.parent,
      List.getElem?_eq_none (Nat.le_of_lt more), List.getElem?_eq_none beyond]

end ScopePast

/-! ### The scopes that a past leaves -/

/-- The scopes of the heap are those that a past leaves. -/
structure Heap.Records (h : Heap) (past : ScopePast) : Prop where
  count : h.scopes.size = past.parents.length
  parents : h.parentScope? = past.parent
  bindings : ∀ s name, h.lookupLocal s name = past.lastWritten s name
  older : ParentsOlder past.parent

namespace Heap.Records

variable {h : Heap} {past : ScopePast}

theorem none (empty : h.scopes.size = 0) : h.Records .none := by
  have absent (s : Ref .scope) : h.scopes.get? s = Option.none :=
    Array.getElem?_eq_none (Nat.le_trans (Nat.le_of_eq empty) (Nat.zero_le _))
  refine ⟨empty, ?_, ?_, nofun⟩
  · funext s
    rw [parentScope?, Heap.scope, absent]
    rfl
  · intro s name
    rw [lookupLocal, Heap.scope, absent]
    rfl

variable (records : h.Records past)

include records

theorem binds (name : String) : h.Binds name = past.Binds name := by
  funext s
  rw [Heap.Binds, records.bindings, eq_iff_iff, past.isSome_lastWritten]

theorem older' : ParentsOlder h.parentScope? := records.parents ▸ records.older

/-- A new scope is empty, and all others are as they were. -/
theorem made {parent : Option (Ref .scope)}
    (older : ∀ p, parent = some p → p.index < past.parents.length) :
    ({ h with scopes := (h.scopes.alloc { parent }).2 } : Heap).Records (past.made parent) := by
  refine ⟨?_, ?_, ?_, ?_⟩
  · simp [ScopePast.made, Cells.alloc, Cells.size, ← records.count]
  · funext s
    rw [parentScope?, Heap.scope, Cells.get?_alloc, records.count, past.parent_made,
      ← records.parents, parentScope?, Heap.scope]
    split <;> rfl
  · intro s name
    rw [lookupLocal, Heap.scope, Cells.get?_alloc]
    split
    next new =>
      have absent : h.scopes.get? s = Option.none := Array.getElem?_eq_none (Nat.le_of_eq new.symm)
      have unwritten := records.bindings s name
      rw [lookupLocal, Heap.scope, absent] at unwritten
      exact unwritten
    next => exact records.bindings s name
  · intro s p below
    rw [past.parent_made] at below
    split at below
    next new => exact new ▸ older p below
    next => exact records.older s p below

/-- Looking a name up gives what was written last to the nearest scope that binds it. -/
theorem found (s : Ref .scope) (name : String) :
    (∃ b v, Nearest past.parent (past.Binds name) s b ∧ past.lastWritten b name = some v ∧
      h.lookup s name = some v) ∨
    (Unbound past.parent (past.Binds name) s ∧ h.lookup s name = Option.none) := by
  rcases nearest_or_unbound records.older' s name with ⟨b, nearest⟩ | unbound
  · left
    obtain ⟨v, holds⟩ := Option.isSome_iff_exists.1 nearest.2
    have looked := (lookup_of_nearest records.older' nearest).trans holds
    rw [records.parents, records.binds] at nearest
    exact ⟨b, v, nearest, (records.bindings b name).symm.trans holds, looked⟩
  · right
    have looked := (lookup_eq_none_iff records.older').2 unbound
    rw [records.parents, records.binds] at unbound
    exact ⟨unbound, looked⟩

/-- What is written is what was written last. -/
theorem written {s : Ref .scope} {name : String} {v : Value} {h' : Heap}
    (writes : h.Writes s name v h') : h'.Records (past.written s name v) where
  count := writes.count.trans records.count
  parents := writes.parents.trans records.parents
  bindings t other := by
    rw [writes.bindings, records.bindings, ScopePast.lastWritten, ScopePast.lastWritten,
      ScopePast.written, List.lookup_cons]
    by_cases same : s = t ∧ name = other
    · obtain ⟨rfl, rfl⟩ := same
      simp
    · have apart : ((t, other) == (s, name)) = false := by
        rw [beq_eq_false_iff_ne]
        rintro ⟨⟩
        exact same ⟨rfl, rfl⟩
      rw [if_neg same, apart]
  older := records.older

end Heap.Records

/-! ### Runs -/

/-- The second machine is the first one but for its scopes. -/
def Machine.SameButScopes (m m' : Machine) : Prop :=
  ∃ scopes, m' = { m with heap := { m.heap with scopes } }

namespace ScopeCommand

variable {m : Machine} {past : ScopePast}

/-- A command is answered as the past tells, and leaves the scopes that it should. -/
def KeepsTo (past : ScopePast) (m : Machine) (command : ScopeCommand) : Prop :=
  ∃ past', past.Takes command (command.onMachine m).1 past' ∧
    (command.onMachine m).2.heap.Records past' ∧
    past'.parents.length = command.countAfter past.parents.length ∧
    m.SameButScopes (command.onMachine m).2

section Steps

variable (records : m.heap.Records past)

include records

theorem keepsTo_newRoot : KeepsTo past m .newRoot := by
  have new : (newRoot.onMachine m).1 = .ok (.scope past.next) := by
    rw [ScopePast.next, ← records.count]
    rfl
  exact ⟨past.made none, new ▸ .newRoot, records.made nofun, by simp [ScopePast.made, countAfter],
    _, rfl⟩

theorem keepsTo_child {parent : Ref .scope} (within : parent.index < past.parents.length) :
    KeepsTo past m (.child parent) := by
  have new : ((child parent).onMachine m).1 = .ok (.scope past.next) := by
    rw [ScopePast.next, ← records.count]
    rfl
  have present : ∀ p, some parent = some p → p.index < past.parents.length := by
    rintro p ⟨⟩
    exact within
  exact ⟨past.made (some parent), new ▸ .child parent, records.made present,
    by simp [ScopePast.made, countAfter], _, rfl⟩

theorem keepsTo_define {s : Ref .scope} (within : s.index < past.parents.length) (name : String)
    (v : Value) : KeepsTo past m (.define s name v) := by
  have writes := Heap.writes_define (records.count ▸ within) name v
  exact ⟨_, .define s name v, records.written writes, rfl, _, rfl⟩

theorem keepsTo_assign (s : Ref .scope) (name : String) (v : Value) :
    KeepsTo past m (.assign s name v) := by
  have laws := Machine.scopeLaws records.older'
  unfold KeepsTo
  rcases Heap.nearest_or_unbound records.older' s name with ⟨b, nearest⟩ | unbound
  · obtain ⟨h', -, done, writes, -⟩ := laws.assign v nearest
    have answered : (assign s name v).onMachine m = (.ok .done, { m with heap := h' }) := by
      rw [onMachine, action, Run.on_map, done]
    have rest : m.SameButScopes { m with heap := h' } :=
      ⟨h'.scopes, congrArg (fun heap => { m with heap }) writes.rest⟩
    rw [answered]
    rw [records.parents, records.binds] at nearest
    exact ⟨_, .assign v nearest, records.written writes, rfl, rest⟩
  · have answered : (assign s name v).onMachine m = (.error (ScopePast.undefined name), m) := by
      rw [onMachine, action, Run.on_map, (laws.assign_unbound v unbound).2]
      rfl
    rw [answered]
    rw [records.parents, records.binds] at unbound
    exact ⟨past, .assignUnbound v unbound, records, rfl, _, rfl⟩

theorem keepsTo_lookup (s : Ref .scope) (name : String) : KeepsTo past m (.lookup s name) := by
  have answered : (lookup s name).onMachine m = (.ok (.found (m.heap.lookup s name)), m) := rfl
  unfold KeepsTo
  rw [answered]
  rcases records.found s name with ⟨b, v, nearest, last, looked⟩ | ⟨unbound, looked⟩
  · rw [looked]
    exact ⟨past, .lookup nearest last, records, rfl, _, rfl⟩
  · rw [looked]
    exact ⟨past, .lookupUnbound unbound, records, rfl, _, rfl⟩

theorem keepsTo_get (s : Ref .scope) (name : String) : KeepsTo past m (.get s name) := by
  unfold KeepsTo
  rcases records.found s name with ⟨b, v, nearest, last, looked⟩ | ⟨unbound, looked⟩
  · have answered : (get s name).onMachine m = (.ok (.found (some v)), m) := by
      rw [onMachine, action, Run.on_map, Action.on_viewHeap, Heap.readName, looked]
      rfl
    rw [answered]
    exact ⟨past, .get nearest last, records, rfl, _, rfl⟩
  · have answered : (get s name).onMachine m = (.error (ScopePast.undefined name), m) := by
      rw [onMachine, action, Run.on_map, Action.on_viewHeap, Heap.readName, looked]
      rfl
    rw [answered]
    exact ⟨past, .getUnbound unbound, records, rfl, _, rfl⟩

theorem keepsTo {command : ScopeCommand} (within : command.Within past.parents.length) :
    KeepsTo past m command := by
  cases command with
  | newRoot => exact keepsTo_newRoot records
  | child parent => exact keepsTo_child records within
  | define s name v => exact keepsTo_define records within name v
  | assign s name v => exact keepsTo_assign records s name v
  | lookup s name => exact keepsTo_lookup records s name
  | get s name => exact keepsTo_get records s name

end Steps

/-- A run is answered as the past tells, and leaves the scopes that it should. -/
theorem follows (records : m.heap.Records past) (commands : List ScopeCommand)
    (within : AllWithin past.parents.length commands) :
    ∃ past', past.Follows commands (runSteps onMachine commands m).1 past' ∧
      (runSteps onMachine commands m).2.heap.Records past' ∧
      m.SameButScopes (runSteps onMachine commands m).2 := by
  induction commands generalizing m past with
  | nil => exact ⟨past, .nil past, records, m.heap.scopes, rfl⟩
  | cons command rest ih =>
    obtain ⟨within, others⟩ := within
    obtain ⟨past', takes, records', count, scopes, same⟩ := keepsTo records within
    obtain ⟨last, follows, recorded, scopes', same'⟩ := ih records' (count ▸ others)
    refine ⟨last, .cons takes follows, recorded, scopes', same'.trans ?_⟩
    rw [same]

end ScopeCommand

/-- Every run of commands on scopes from a machine without scopes follows its past: a name that is
looked up gives what was written last to the nearest scope that binds it, and reading or assigning
fails where none up to the root does. Whenever such a run has come to an end, the laws of scopes
hold, and nothing but scopes has changed. -/
theorem scopes_follow_past {m : Machine} (empty : m.heap.scopes.size = 0)
    (commands : List ScopeCommand) (within : ScopeCommand.AllWithin 0 commands) :
    ∃ past, ScopePast.none.Follows commands (runSteps ScopeCommand.onMachine commands m).1 past ∧
      (runSteps ScopeCommand.onMachine commands m).2.heap.Records past ∧
      (runSteps ScopeCommand.onMachine commands m).2.ScopeLaws ∧
      m.SameButScopes (runSteps ScopeCommand.onMachine commands m).2 := by
  obtain ⟨past, follows, records, same⟩ := ScopeCommand.follows (.none empty) commands within
  exact ⟨past, follows, records, Machine.scopeLaws records.older', same⟩

/-- Two siblings, one of which shadows a name of their parent that the other assigns to. -/
def siblingCommands : List ScopeCommand :=
  [.newRoot, .child ⟨0⟩, .child ⟨0⟩, .define ⟨0⟩ "x" .null, .define ⟨1⟩ "x" (.text "inner"),
    .assign ⟨2⟩ "x" (.text "outer"), .lookup ⟨1⟩ "x", .get ⟨0⟩ "x", .lookup ⟨2⟩ "y",
    .assign ⟨2⟩ "y" .null]

theorem scopes_follow_past_siblings :
    (Machine.fresh {}).heap.scopes.size = 0 ∧ ScopeCommand.AllWithin 0 siblingCommands ∧
      (∃ past, ScopePast.none.Follows siblingCommands
        [.ok (.scope ⟨0⟩), .ok (.scope ⟨1⟩), .ok (.scope ⟨2⟩), .ok .done, .ok .done, .ok .done,
          .ok (.found (some (.text "inner"))), .ok (.found (some (.text "outer"))),
          .ok (.found none), .error (.fault { cause := .undefinedVariable "y" })] past) ∧
      (runSteps ScopeCommand.onMachine siblingCommands (Machine.fresh {})).2.ScopeLaws := by
  have within : ScopeCommand.AllWithin 0 siblingCommands := by
    simp [siblingCommands, ScopeCommand.AllWithin, ScopeCommand.Within, ScopeCommand.countAfter]
  obtain ⟨past, follows, -, laws, -⟩ :=
    scopes_follow_past (m := Machine.fresh {}) rfl siblingCommands within
  exact ⟨rfl, within, ⟨past, follows⟩, laws⟩

end ScriptCore
