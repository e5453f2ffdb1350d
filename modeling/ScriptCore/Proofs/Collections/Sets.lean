import ScriptCore.Native.Sets
import ScriptCore.Proofs.Collections.Calls
import ScriptCore.Proofs.Index.View
import ScriptCore.Proofs.Runs

/-!
Set follows a list of rows, whatever happens to its members in the meantime.

A row is a member under the key that it had when it was added. Adding a member whose key is present
changes nothing, so the first member of a key stays. As with Map, calls alternate with interludes,
and each call is seen with the key that its argument has when the call is made.
-/

namespace ScriptCore

/-! ### Commands and requests -/

/-- What is done to a Set after its construction. -/
inductive SetCommand (r : Ref .inst) where
  | add (member : Value)
  | has (member : Value)
  | delete (member : Value)
  | size
  | clear
  | values
  | keys
  | meanwhile (interlude : Interlude r)

/-- A call on a list of rows, with the key of its argument. -/
inductive SetRequest where
  | add (k : Key) (member : Value)
  | has (k : Key)
  | delete (k : Key)
  | size
  | clear
  | values
  | meanwhile

/-- A member under a key. -/
abbrev SetRow := Key × Value

namespace SetRequest

/-- Answers a request from a list of rows. Adding gives back the Set itself. -/
def onRows (this : Value) (request : SetRequest) (rows : List SetRow) : Reply × List SetRow :=
  match request with
  | add k member => (.value this, if k ∈ rows.map Prod.fst then rows else rows ++ [(k, member)])
  | has k => (.value (.boolean (decide (k ∈ rows.map Prod.fst))), rows)
  | delete k => (.value (.boolean (decide (k ∈ rows.map Prod.fst))), Entries.without rows k)
  | size => (.value (.ofNat rows.length), rows)
  | clear => (.value .null, [])
  | values => (.listing (rows.map Prod.snd), rows)
  | meanwhile => (.nothing, rows)

/-- The additions that a constructor's argument stands for: one for each item of an array, in
order, with the key that it has now. -/
def ofArgument (h : Heap) (arg : Option Value) : Except Cause (List SetRequest) :=
  match arg with
  | none | some .null => .ok []
  | some (.array r) => .ok ((h.items r).map fun item => .add (h.keyOf item) item)
  | some other => .error (.mismatch SetMethod.construct.label "array" other)

end SetRequest

namespace SetCommand

variable {r : Ref .inst}

/-- What a command comes to in the present state of the machine. The two names of the listing of
members make no difference. -/
def seen (command : SetCommand r) (m : Machine) : SetRequest :=
  match command with
  | add member => .add (m.heap.keyOf member) member
  | has member => .has (m.heap.keyOf member)
  | delete member => .delete (m.heap.keyOf member)
  | size => .size
  | clear => .clear
  | values | keys => .values
  | meanwhile _ => .meanwhile

/-- How a command is carried out on the Set. -/
def onMachine (re : Reentry) (command : SetCommand r) (m : Machine) :
    Except Failure Reply × Machine :=
  match command with
  | add member => Reading.asValue.answer (SetMethod.add.call re (some (.inst r)) [member]) m
  | has member => Reading.asValue.answer (SetMethod.has.call re (some (.inst r)) [member]) m
  | delete member => Reading.asValue.answer (SetMethod.delete.call re (some (.inst r)) [member]) m
  | size => Reading.asValue.answer (SetMethod.size.call re (some (.inst r)) []) m
  | clear => Reading.asValue.answer (SetMethod.clear.call re (some (.inst r)) []) m
  | values | keys => Reading.asListing.answer (SetMethod.values.call re (some (.inst r)) []) m
  | meanwhile interlude => (.ok .nothing, interlude.change m)

/-- The class defines the listing of members under both names. -/
example : SetMethod.table.lookup "values" = some .values ∧
    SetMethod.table.lookup "keys" = some .values := by decide

end SetCommand

/-! ### Stores and rows -/

namespace SetStore

/-- The rows that a store stands for. -/
def rows (store : SetStore) : List SetRow := store.members.toList

theorem rows_empty : SetStore.empty.rows = [] := rfl

theorem contains_iff (store : SetStore) (k : Key) :
    store.contains k = true ↔ k ∈ store.rows.map Prod.fst := store.members.contains_iff k

theorem contains_eq (store : SetStore) (k : Key) :
    store.contains k = decide (k ∈ store.rows.map Prod.fst) := by
  rw [Bool.eq_iff_iff, decide_eq_true_iff, contains_iff]

/-- Adding a member adds a row at the end if its key is new, and else nothing. -/
theorem rows_insert (store : SetStore) (k : Key) (member : Value) :
    (store.insert k member).rows =
      if k ∈ store.rows.map Prod.fst then store.rows else store.rows ++ [(k, member)] := by
  rw [insert, contains_eq]
  by_cases present : k ∈ store.rows.map Prod.fst
  · simp [present]
  · have added := (store.members.toList_set k member).trans (Entries.put_of_notMem present member)
    simp only [present, decide_false, Bool.false_eq_true, if_false]
    exact added

theorem rows_erase (store : SetStore) (k : Key) :
    (store.erase k).rows = Entries.without store.rows k := store.members.toList_remove k

theorem size_eq (store : SetStore) : store.size = store.rows.length := store.members.size_eq_length

theorem values_eq (store : SetStore) : store.values = store.rows.map Prod.snd := rfl

theorem lawful (store : SetStore) :
    StoreType.set.project (StoreType.set.inject store) = some store := rfl

/-- Adding members one after another adds what the requests to add them add. -/
theorem rows_insertAll (h : Heap) (this : Value) (members : List Value) (store : SetStore) :
    (store.insertAll h.keyOf members).rows =
      (runSteps (SetRequest.onRows this)
        (members.map fun member => .add (h.keyOf member) member) store.rows).2 := by
  induction members generalizing store with
  | nil => rfl
  | cons member rest ih =>
    have added := ih (store.insert (h.keyOf member) member)
    rwa [rows_insert] at added

/-- The argument of a constructor stands for the rows that its additions leave, or both fail. -/
theorem ofArgument_eq_additions (h : Heap) (this : Value) (arg : Option Value) :
    match SetRequest.ofArgument h arg with
    | .error cause => ofArgument h SetMethod.construct.label arg = .error cause
    | .ok additions => ∃ built, ofArgument h SetMethod.construct.label arg = .ok built ∧
        built.rows = (runSteps (SetRequest.onRows this) additions []).2 := by
  match arg with
  | none | some .null => exact ⟨.empty, rfl, rfl⟩
  | some (.array r) => exact ⟨_, rfl, rows_insertAll h this (h.items r) .empty⟩
  | some (.boolean _) | some (.number _) | some (.text _) | some (.object _) | some (.function _)
  | some (.cls _) | some (.inst _) | some (.promise _) => rfl

end SetStore

/-! ### The methods -/

namespace SetMethod

variable (re : Reentry) {r : Ref .inst} {m : Machine}

theorem on_construct (bare : m.heap.Bare r) (arg : Option Value) :
    (SetMethod.construct.call re (some (.inst r)) arg.toList).on m =
      match SetStore.ofArgument m.heap construct.label arg with
      | .error cause => (.error (.fault { cause }), m)
      | .ok store => (.ok .null, { m with heap := m.heap.setResource r (.set store) }) := by
  have argument : arg.toList[0]? = arg := by cases arg <;> rfl
  have checked : Arguments.between construct.label 0 1 arg.toList.length = .ok () := by
    cases arg <;> rfl
  simp only [call, checked, argument, Run.on_bind, Action.on_check_ok, Action.on_viewHeap]
  cases SetStore.ofArgument m.heap construct.label arg with
  | error cause => rfl
  | ok store => exact Native.on_attachToReceiver bare _ _

variable {store : SetStore} (owns : m.heap.Owns r (.set store))

include owns

theorem on_add (member : Value) :
    (SetMethod.add.call re (some (.inst r)) [member]).on m =
      (.ok (.inst r), m.changeStore .set r fun store =>
        store.insert (m.heap.keyOf member) member) := by
  simp [call, Arguments.exactly, Arguments.receiver, Action.on_useStore SetStore.lawful owns]

theorem on_has (member : Value) :
    (SetMethod.has.call re (some (.inst r)) [member]).on m =
      (.ok (.boolean (store.contains (m.heap.keyOf member))), m) := by
  simp [call, Arguments.exactly, Native.on_readStore SetStore.lawful owns]

theorem on_delete (member : Value) :
    (SetMethod.delete.call re (some (.inst r)) [member]).on m =
      (.ok (.boolean (store.contains (m.heap.keyOf member))),
        m.changeStore .set r fun store => store.erase (m.heap.keyOf member)) := by
  simp [call, Arguments.exactly, Native.on_useStore SetStore.lawful owns]

theorem on_size :
    (SetMethod.size.call re (some (.inst r)) []).on m = (.ok (.ofNat store.size), m) := by
  simp [call, Arguments.exactly, Native.on_readStore SetStore.lawful owns]

theorem on_clear :
    (SetMethod.clear.call re (some (.inst r)) []).on m =
      (.ok .null, m.changeStore .set r fun _ => .empty) := by
  simp [call, Arguments.exactly, Native.changeStore, Native.on_useStore SetStore.lawful owns]

theorem on_values :
    (SetMethod.values.call re (some (.inst r)) []).on m = (Action.newArray store.values).on m := by
  simp [call, Arguments.exactly, Native.on_readStore SetStore.lawful owns]

end SetMethod

/-! ### One command -/

/-- The instance owns a Set store that stands for the rows. -/
def Heap.OwnsSet (h : Heap) (r : Ref .inst) (rows : List SetRow) : Prop :=
  ∃ store : SetStore, h.Owns r (.set store) ∧ store.rows = rows

/-- A Set, and its rows. -/
def SetCommand.collection (re : Reentry) (r : Ref .inst) : Collection where
  Command := SetCommand r
  Request := SetRequest
  Row := SetRow
  construct arg := SetMethod.construct.call re (some (.inst r)) arg.toList
  onMachine := SetCommand.onMachine re
  initial := SetRequest.ofArgument
  seen := SetCommand.seen
  onRows := SetRequest.onRows (.inst r)
  Owns h rows := h.OwnsSet r rows

namespace SetCommand

theorem answersAsRows (re : Reentry) (r : Ref .inst) : (collection re r).AnswersAsRows := by
  rintro command m - ⟨store, owns, rfl⟩
  simp only [collection]
  cases command with
  | add member =>
    rw [onMachine, Reading.answer_of_ok _ (SetMethod.on_add re owns member)]
    exact ⟨rfl, _, Heap.owns_changeStore SetStore.lawful owns _, store.rows_insert _ member⟩
  | has member =>
    rw [onMachine, Reading.answer_of_ok _ (SetMethod.on_has re owns member), store.contains_eq]
    exact ⟨rfl, store, owns, rfl⟩
  | delete member =>
    rw [onMachine, Reading.answer_of_ok _ (SetMethod.on_delete re owns member), store.contains_eq]
    exact ⟨rfl, _, Heap.owns_changeStore SetStore.lawful owns _, store.rows_erase _⟩
  | size =>
    rw [onMachine, Reading.answer_of_ok _ (SetMethod.on_size re owns), store.size_eq]
    exact ⟨rfl, store, owns, rfl⟩
  | clear =>
    rw [onMachine, Reading.answer_of_ok _ (SetMethod.on_clear re owns)]
    exact ⟨rfl, _, Heap.owns_changeStore SetStore.lawful owns _, SetStore.rows_empty⟩
  | values | keys =>
    rw [onMachine, Reading.answer_newArray (SetMethod.on_values re owns), store.values_eq]
    exact ⟨rfl, store, owns, rfl⟩
  | meanwhile interlude => exact ⟨rfl, store, (interlude.keeps m).trans owns, rfl⟩

theorem constructsAsRows (re : Reentry) {r : Ref .inst} {m : Machine} (bare : m.heap.Bare r)
    (arg : Option Value) : (collection re r).ConstructsAsRows arg m := by
  have constructed := SetMethod.on_construct re bare arg
  have built := SetStore.ofArgument_eq_additions m.heap (.inst r) arg
  simp only [Collection.ConstructsAsRows, collection]
  split <;> rename_i additions <;> rw [additions] at built
  · rwa [built] at constructed
  · obtain ⟨store, stored, rows⟩ := built
    rw [stored] at constructed
    exact ⟨_, constructed, store, Heap.owns_setResource bare (.set store), rows⟩

end SetCommand

end ScriptCore
