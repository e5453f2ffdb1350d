import ScriptCore.Machine
import ScriptCore.Proofs.Scopes.Paths

/-!
What a write to a scope does, and from where it is seen.

Defining a name and assigning to it both write one value for one name in one scope. Such a write is
seen from exactly the scopes whose way up meets the scope before any other one that binds the name.
Assigning writes to the nearest scope that binds the name, so what it writes is seen from exactly
the scopes that have this nearest binding; and it makes no binding.
-/

namespace ScriptCore

/-! ### One write -/

namespace Heap

/-- The second heap has a value for one name in one scope, and is the first one otherwise. -/
structure Writes (h : Heap) (s : Ref .scope) (name : String) (v : Value) (h' : Heap) : Prop where
  bindings : ∀ t other, h'.lookupLocal t other =
    if s = t ∧ name = other then some v else h.lookupLocal t other
  parents : h'.parentScope? = h.parentScope?
  count : h'.scopes.size = h.scopes.size
  rest : h' = { h with scopes := h'.scopes }

/-- After a write to a scope, the name resolves to this scope from the scopes with a property, and
gives the value that was written; from all other scopes, and for all other names, nothing is
different. -/
structure SeenFrom (h : Heap) (s : Ref .scope) (name : String) (v : Value) (h' : Heap)
    (seen : Ref .scope → Prop) : Prop where
  resolves : ∀ t, h'.binder? t name = some s ↔ seen t
  sees : ∀ t, seen t → h'.lookup t name = some v
  others : ∀ t other, ¬ (name = other ∧ seen t) →
    h'.binder? t other = h.binder? t other ∧ h'.lookup t other = h.lookup t other

variable {h h' : Heap} {s t b : Ref .scope} {name other : String} {v : Value}

theorem parentScope?_define (h : Heap) (s : Ref .scope) (name : String) (v : Value) :
    (h.define s name v).parentScope? = h.parentScope? := by
  funext t
  rw [parentScope?, parentScope?, Heap.scope, Heap.scope, define, Cells.get?_modify]
  split
  · cases h.scopes.get? t <;> rfl
  · rfl

theorem writes_define (present : s.index < h.scopes.size) (name : String) (v : Value) :
    h.Writes s name v (h.define s name v) where
  bindings t other := by
    rw [lookupLocal, lookupLocal, Heap.scope, Heap.scope, define, Cells.get?_modify]
    by_cases same : s = t
    · subst same
      obtain ⟨scope, found⟩ : ∃ scope, h.scopes.get? s = some scope :=
        ⟨_, Array.getElem?_eq_getElem present⟩
      simp [found, OrderedIndex.get?_set, @eq_comm _ other]
    · simp [same]
  parents := parentScope?_define h s name v
  count := by simp [define, Cells.size, Cells.modify]
  rest := rfl

/-- A scope that binds a name exists. -/
theorem Binds.present (binds : h.Binds name s) : s.index < h.scopes.size := by
  by_contra absent
  have none : h.scopes.get? s = none := Array.getElem?_eq_none (Nat.le_of_not_lt absent)
  rw [Binds, lookupLocal, Heap.scope, none] at binds
  exact Bool.false_ne_true binds

namespace Writes

variable (writes : h.Writes s name v h')

include writes

theorem binds_iff : h'.Binds other t ↔ (s = t ∧ name = other) ∨ h.Binds other t := by
  rw [Binds, writes.bindings]
  split
  · simp [*]
  · simp [*, Binds]

theorem older (older : ParentsOlder h.parentScope?) : ParentsOlder h'.parentScope? :=
  writes.parents ▸ older

/-- Where the way up meets the scope first, the name now resolves to it. -/
theorem binder?_of_meetsFirst (older : ParentsOlder h.parentScope?)
    (meets : MeetsFirst h.parentScope? (h.Binds name) t s) : h'.binder? t name = some s := by
  induction meets with
  | here s => exact binder?_of_binds (writes.binds_iff.2 (.inl ⟨rfl, rfl⟩))
  | @up t p s left below _ ih =>
    by_cases same : s = t
    · subst same
      exact binder?_of_binds (writes.binds_iff.2 (.inl ⟨rfl, rfl⟩))
    · have free : ¬ h'.Binds name t := by
        rw [writes.binds_iff]
        rintro (⟨rfl, -⟩ | binding)
        · exact same rfl
        · exact left binding
      rw [binder?_of_child (writes.older older) free (writes.parents ▸ below)]
      exact ih writes

/-- Everywhere else, and for other names, everything resolves as before. -/
theorem binder?_of_not (older : ParentsOlder h.parentScope?)
    (apart : ¬ (name = other ∧ MeetsFirst h.parentScope? (h.Binds name) t s)) :
    h'.binder? t other = h.binder? t other := by
  induction t using older.induction with
  | step t ih =>
    have same : h'.Binds other t ↔ h.Binds other t := by
      rw [writes.binds_iff]
      constructor
      · rintro (⟨rfl, rfl⟩ | binding)
        · exact absurd ⟨rfl, .here s⟩ apart
        · exact binding
      · exact .inr
    by_cases binding : h.Binds other t
    · rw [binder?_of_binds binding, binder?_of_binds (same.2 binding)]
    · have free := mt same.1 binding
      cases below : h.parentScope? t with
      | none => rw [binder?_of_root binding below, binder?_of_root free (writes.parents ▸ below)]
      | some p =>
        rw [binder?_of_child older binding below,
          binder?_of_child (writes.older older) free (writes.parents ▸ below)]
        apply ih p below
        rintro ⟨rfl, meets⟩
        exact apart ⟨rfl, .up binding below meets⟩

theorem seenFrom (older : ParentsOlder h.parentScope?) :
    h.SeenFrom s name v h' (fun t => MeetsFirst h.parentScope? (h.Binds name) t s) where
  resolves t := by
    constructor
    · intro resolved
      by_contra apart
      rw [writes.binder?_of_not older (fun both => apart both.2)] at resolved
      exact apart ((binder?_eq_some_iff older).1 resolved).1
    · exact writes.binder?_of_meetsFirst older
  sees t meets := by
    rw [lookup_eq_bind, writes.binder?_of_meetsFirst older meets, Option.bind_some,
      writes.bindings, if_pos ⟨rfl, rfl⟩]
  others t other apart := by
    have same := writes.binder?_of_not older apart
    constructor
    · exact same
    · rw [lookup_eq_bind, lookup_eq_bind, same]
      cases resolved : h.binder? t other with
      | none => rfl
      | some b =>
        rw [Option.bind_some, Option.bind_some, writes.bindings, if_neg]
        rintro ⟨rfl, rfl⟩
        exact apart ⟨rfl, ((binder?_eq_some_iff older).1 resolved).1⟩

/-- A write to a scope that binds the name makes no binding. -/
theorem binds_iff_of_binds (binding : h.Binds name s) : h'.Binds other t ↔ h.Binds other t := by
  rw [writes.binds_iff]
  constructor
  · rintro (⟨rfl, rfl⟩ | binding')
    · exact binding
    · exact binding'
  · exact .inr

end Writes

/-- Defining names one after another, each of them once, defines these names in the scope itself and
nothing else. -/
theorem lookupLocal_defineAll {bindings : List (String × Value)}
    (distinct : (bindings.map Prod.fst).Nodup) {h : Heap} {s : Ref .scope}
    (present : s.index < h.scopes.size) (t : Ref .scope) (other : String) :
    (h.defineAll s bindings).lookupLocal t other =
      if s = t then (bindings.lookup other).or (h.lookupLocal t other)
      else h.lookupLocal t other := by
  induction bindings generalizing h with
  | nil => simp [defineAll]
  | cons binding rest ih =>
    obtain ⟨name, v⟩ := binding
    obtain ⟨new, distinct⟩ := List.nodup_cons.1 distinct
    have writes := writes_define present name v
    have later := ih distinct (writes.count.symm ▸ present)
    rw [defineAll, List.foldl_cons, ← defineAll, later, writes.bindings, List.lookup_cons]
    by_cases same : s = t
    · by_cases named : name = other
      · subst named
        simp [same, Entries.lookup_of_notMem new]
      · have apart : (other == name) = false := beq_eq_false_iff_ne.2 (Ne.symm named)
        simp [same, named, apart]
    · simp [same]

theorem rest_defineAll (h : Heap) (s : Ref .scope) (bindings : List (String × Value)) :
    h.defineAll s bindings = { h with scopes := (h.defineAll s bindings).scopes } := by
  induction bindings generalizing h with
  | nil => rfl
  | cons binding rest ih => exact (ih (h.define s binding.1 binding.2)).trans rfl

theorem parentScope?_defineAll (h : Heap) (s : Ref .scope) (bindings : List (String × Value)) :
    (h.defineAll s bindings).parentScope? = h.parentScope? := by
  induction bindings generalizing h with
  | nil => rfl
  | cons binding rest ih => exact (ih _).trans (parentScope?_define h s binding.1 binding.2)

end Heap

/-! ### The laws -/

/-- What holds of the scopes of a machine at any time. -/
structure Machine.ScopeLaws (m : Machine) : Prop where
  /-- Looking a name up gives what the nearest scope that binds it holds. -/
  lookup : ∀ {s b name}, Nearest m.heap.parentScope? (m.heap.Binds name) s b →
    m.heap.lookup s name = m.heap.lookupLocal b name
  /-- Reading a name fails if and only if no scope up to the root binds it. -/
  get_fails : ∀ s name, m.heap.readName s name = .error (.undefinedVariable name) ↔
    Unbound m.heap.parentScope? (m.heap.Binds name) s
  /-- Defining a name writes to the scope itself. -/
  define : ∀ {s} name v, s.index < m.heap.scopes.size →
    m.heap.Writes s name v (m.heap.define s name v) ∧
      m.heap.SeenFrom s name v (m.heap.define s name v)
        (fun t => MeetsFirst m.heap.parentScope? (m.heap.Binds name) t s)
  /-- Assigning to a name writes to the nearest scope that binds it. -/
  assign : ∀ {s b name} v, Nearest m.heap.parentScope? (m.heap.Binds name) s b →
    ∃ h', m.heap.assign s name v = .ok h' ∧
      (Action.assign s name v).on m = (.ok (), { m with heap := h' }) ∧
      m.heap.Writes b name v h' ∧
      (∀ t other, h'.Binds other t ↔ m.heap.Binds other t) ∧
      m.heap.SeenFrom b name v h'
        (fun t => Nearest m.heap.parentScope? (m.heap.Binds name) t b)
  /-- Where no scope up to the root binds the name, assigning fails and changes nothing. -/
  assign_unbound : ∀ {s name} v, Unbound m.heap.parentScope? (m.heap.Binds name) s →
    m.heap.assign s name v = .error (.undefinedVariable name) ∧
      (Action.assign s name v).on m =
        (.error (.fault { cause := .undefinedVariable name }), m)

namespace Machine

variable {m : Machine} {s b : Ref .scope} {name : String}

/-- The interpreter assigns as the heap does. -/
theorem on_assign (m : Machine) (s : Ref .scope) (name : String) (v : Value) :
    (Action.assign s name v).on m = match m.heap.assign s name v with
      | .ok h' => (.ok (), { m with heap := h' })
      | .error cause => (.error (.fault { cause }), m) := by
  rw [Action.assign, Run.on_bind, Action.on_viewHeap, Heap.assign]
  cases m.heap.binder s name <;> rfl

variable (older : ParentsOlder m.heap.parentScope?)

include older

theorem assign_of_nearest (nearest : Nearest m.heap.parentScope? (m.heap.Binds name) s b)
    (v : Value) : m.heap.assign s name v = .ok (m.heap.define b name v) := by
  rw [Heap.assign, Heap.binder, (Heap.binder?_eq_some_iff older).2 nearest]
  rfl

theorem assign_of_unbound (unbound : Unbound m.heap.parentScope? (m.heap.Binds name) s)
    (v : Value) : m.heap.assign s name v = .error (.undefinedVariable name) := by
  rw [Heap.assign, Heap.binder, (Heap.binder?_eq_none_iff older).2 unbound]
  rfl

theorem readName_eq_error_iff : m.heap.readName s name = .error (.undefinedVariable name) ↔
    Unbound m.heap.parentScope? (m.heap.Binds name) s := by
  rw [← Heap.lookup_eq_none_iff older, Heap.readName]
  cases m.heap.lookup s name with
  | none => exact ⟨fun _ => rfl, fun _ => rfl⟩
  | some v => exact ⟨nofun, nofun⟩

theorem scopeLaws : m.ScopeLaws where
  lookup nearest := Heap.lookup_of_nearest older nearest
  get_fails s name := readName_eq_error_iff older
  define name v present := by
    have writes := Heap.writes_define present name v
    exact ⟨writes, writes.seenFrom older⟩
  assign {s b name} v nearest := by
    have writes := Heap.writes_define nearest.2.present name v
    have assigned := assign_of_nearest older nearest v
    refine ⟨_, assigned, by rw [on_assign, assigned], writes, ?_, ?_⟩
    · intro t other
      exact writes.binds_iff_of_binds nearest.2
    · have same : (fun t => MeetsFirst m.heap.parentScope? (m.heap.Binds name) t b) =
          (fun t => Nearest m.heap.parentScope? (m.heap.Binds name) t b) :=
        funext fun t => propext (and_iff_left nearest.2).symm
      exact same ▸ writes.seenFrom older
  assign_unbound v unbound := by
    have failed := assign_of_unbound older unbound v
    exact ⟨failed, by rw [on_assign, failed]⟩

end Machine

end ScriptCore
