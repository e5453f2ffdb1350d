import ScriptCore.Native.Maps
import ScriptCore.Proofs.Collections.Calls
import ScriptCore.Proofs.Index.View
import ScriptCore.Proofs.Runs

/-!
Map follows a list of rows, whatever happens to its keys and values in the meantime.

A row is a pair of a key value and a value under the key that the key value had when it was set.
Calls on a Map alternate with interludes that leave the Map alone and may do anything else, such as
writing to the arrays and objects that it holds. The Map answers like the list of rows that takes
the same calls, each seen with the key that its argument has when the call is made.
-/

namespace ScriptCore

/-! ### Commands and requests -/

/-- What is done to a Map after its construction. -/
inductive MapCommand (r : Ref .inst) where
  | set (key value : Value)
  | get (key : Value)
  | has (key : Value)
  | delete (key : Value)
  | size
  | clear
  | keys
  | values
  | entries
  | meanwhile (interlude : Interlude r)

/-- A call on a list of rows, with the key of its argument. -/
inductive MapRequest where
  | set (k : Key) (key value : Value)
  | get (k : Key)
  | has (k : Key)
  | delete (k : Key)
  | size
  | clear
  | keys
  | values
  | entries
  | meanwhile

/-- A key value and a value under a key. -/
abbrev MapRow := Key × Value × Value

namespace MapRequest

/-- Answers a request from a list of rows. Setting gives back the Map itself. -/
def onRows (this : Value) (request : MapRequest) (rows : List MapRow) : Reply × List MapRow :=
  match request with
  | set k key value => (.value this, Entries.put rows k (key, value))
  | get k => (.value (((rows.lookup k).map Prod.snd).getD .null), rows)
  | has k => (.value (.boolean (decide (k ∈ rows.map Prod.fst))), rows)
  | delete k => (.value (.boolean (decide (k ∈ rows.map Prod.fst))), Entries.without rows k)
  | size => (.value (.ofNat rows.length), rows)
  | clear => (.value .null, [])
  | keys => (.listing (rows.map fun row => row.2.1), rows)
  | values => (.listing (rows.map fun row => row.2.2), rows)
  | entries => (.rows (rows.map fun row => [row.2.1, row.2.2]), rows)
  | meanwhile => (.nothing, rows)

/-- The setting that an array of two elements stands for, with the key that its first one has
now. -/
def ofPair (h : Heap) (item : Value) : Except Cause MapRequest := do
  let (key, value) ← MapStore.pairOf h MapMethod.construct.label item
  pure (.set (h.keyOf key) key value)

/-- The settings that a constructor's argument stands for: one for each pair of an array, in
order. -/
def ofArgument (h : Heap) (arg : Option Value) : Except Cause (List MapRequest) :=
  match arg with
  | none | some .null => .ok []
  | some (.array r) => (h.items r).mapM (ofPair h)
  | some other =>
    .error (.mismatch MapMethod.construct.label "array of [key, value] pairs" other)

end MapRequest

namespace MapCommand

variable {r : Ref .inst}

/-- What a command comes to in the present state of the machine. -/
def seen (command : MapCommand r) (m : Machine) : MapRequest :=
  match command with
  | set key value => .set (m.heap.keyOf key) key value
  | get key => .get (m.heap.keyOf key)
  | has key => .has (m.heap.keyOf key)
  | delete key => .delete (m.heap.keyOf key)
  | size => .size
  | clear => .clear
  | keys => .keys
  | values => .values
  | entries => .entries
  | meanwhile _ => .meanwhile

/-- How a command is carried out on the Map. -/
def onMachine (re : Reentry) (command : MapCommand r) (m : Machine) :
    Except Failure Reply × Machine :=
  match command with
  | set key value => Reading.asValue.answer (MapMethod.set.call re (some (.inst r)) [key, value]) m
  | get key => Reading.asValue.answer (MapMethod.get.call re (some (.inst r)) [key]) m
  | has key => Reading.asValue.answer (MapMethod.has.call re (some (.inst r)) [key]) m
  | delete key => Reading.asValue.answer (MapMethod.delete.call re (some (.inst r)) [key]) m
  | size => Reading.asValue.answer (MapMethod.size.call re (some (.inst r)) []) m
  | clear => Reading.asValue.answer (MapMethod.clear.call re (some (.inst r)) []) m
  | keys => Reading.asListing.answer (MapMethod.keys.call re (some (.inst r)) []) m
  | values => Reading.asListing.answer (MapMethod.values.call re (some (.inst r)) []) m
  | entries => Reading.asRows.answer (MapMethod.entries.call re (some (.inst r)) []) m
  | meanwhile interlude => (.ok .nothing, interlude.change m)

end MapCommand

/-! ### Stores and rows -/

namespace MapStore

/-- The rows that a store stands for. -/
def rows (store : MapStore) : List MapRow := store.entries.toList

theorem rows_empty : MapStore.empty.rows = [] := rfl

theorem rows_insert (store : MapStore) (k : Key) (key value : Value) :
    (store.insert k key value).rows = Entries.put store.rows k (key, value) :=
  store.entries.toList_set k (key, value)

theorem rows_erase (store : MapStore) (k : Key) :
    (store.erase k).rows = Entries.without store.rows k := store.entries.toList_remove k

theorem get?_eq (store : MapStore) (k : Key) :
    store.get? k = (store.rows.lookup k).map Prod.snd := by
  rw [MapStore.get?, OrderedIndex.get?_eq_lookup, rows]

theorem contains_eq (store : MapStore) (k : Key) :
    store.contains k = decide (k ∈ store.rows.map Prod.fst) := by
  rw [Bool.eq_iff_iff, decide_eq_true_iff]
  exact store.entries.contains_iff k

theorem size_eq (store : MapStore) : store.size = store.rows.length := store.entries.size_eq_length

theorem pairs_eq (store : MapStore) : store.pairs = store.rows.map Prod.snd := rfl

theorem keys_eq (store : MapStore) : store.keys = store.rows.map fun row => row.2.1 :=
  List.map_map

theorem values_eq (store : MapStore) : store.values = store.rows.map fun row => row.2.2 :=
  List.map_map

theorem lawful (store : MapStore) :
    StoreType.map.project (StoreType.map.inject store) = some store := rfl

end MapStore

/-! ### The methods -/

namespace MapMethod

variable (re : Reentry) {r : Ref .inst} {m : Machine} {store : MapStore}
  (owns : m.heap.Owns r (.map store))

include owns

theorem on_set (key value : Value) :
    (MapMethod.call re .set (some (.inst r)) [key, value]).on m =
      (.ok (.inst r), m.changeStore .map r fun store =>
        store.insert (m.heap.keyOf key) key value) := by
  simp [call, Arguments.exactly, Arguments.receiver, Action.on_useStore MapStore.lawful owns]

theorem on_get (key : Value) :
    (MapMethod.call re .get (some (.inst r)) [key]).on m =
      (.ok (Native.orNull (store.get? (m.heap.keyOf key))), m) := by
  simp [call, Arguments.exactly, Native.on_readStore MapStore.lawful owns]

theorem on_has (key : Value) :
    (MapMethod.call re .has (some (.inst r)) [key]).on m =
      (.ok (.boolean (store.contains (m.heap.keyOf key))), m) := by
  simp [call, Arguments.exactly, Native.on_readStore MapStore.lawful owns]

theorem on_delete (key : Value) :
    (MapMethod.call re .delete (some (.inst r)) [key]).on m =
      (.ok (.boolean (store.contains (m.heap.keyOf key))),
        m.changeStore .map r fun store => store.erase (m.heap.keyOf key)) := by
  simp [call, Arguments.exactly, Native.on_useStore MapStore.lawful owns]

theorem on_size :
    (MapMethod.call re .size (some (.inst r)) []).on m = (.ok (.ofNat store.size), m) := by
  simp [call, Arguments.exactly, Native.on_readStore MapStore.lawful owns]

theorem on_clear :
    (MapMethod.call re .clear (some (.inst r)) []).on m =
      (.ok .null, m.changeStore .map r fun _ => .empty) := by
  simp [call, Arguments.exactly, Native.changeStore, Native.on_useStore MapStore.lawful owns]

theorem on_keys :
    (MapMethod.call re .keys (some (.inst r)) []).on m = (Action.newArray store.keys).on m := by
  simp [call, Arguments.exactly, Native.on_readStore MapStore.lawful owns]

theorem on_values :
    (MapMethod.call re .values (some (.inst r)) []).on m = (Action.newArray store.values).on m := by
  simp [call, Arguments.exactly, Native.on_readStore MapStore.lawful owns]

theorem on_entries :
    (MapMethod.call re .entries (some (.inst r)) []).on m =
      (do
        let rows ← (store.pairs.map fun (key, value) => [key, value]).mapM Action.newArray
        Action.newArray rows : Action Value).on m := by
  simp [call, Arguments.exactly, Native.on_readStore MapStore.lawful owns, List.mapM_map,
    Function.comp_def]

end MapMethod

/-! ### One command -/

/-- The instance owns a Map store that stands for the rows. -/
def Heap.OwnsMap (h : Heap) (r : Ref .inst) (rows : List MapRow) : Prop :=
  ∃ store : MapStore, h.Owns r (.map store) ∧ store.rows = rows

/-- A Map, and its rows. -/
def MapCommand.collection (re : Reentry) (r : Ref .inst) : Collection where
  Command := MapCommand r
  Request := MapRequest
  Row := MapRow
  construct arg := MapMethod.construct.call re (some (.inst r)) arg.toList
  onMachine := MapCommand.onMachine re
  initial := MapRequest.ofArgument
  seen := MapCommand.seen
  onRows := MapRequest.onRows (.inst r)
  Owns h rows := h.OwnsMap r rows

namespace MapCommand

theorem answersAsRows (re : Reentry) (r : Ref .inst) : (collection re r).AnswersAsRows := by
  rintro command m - ⟨store, owns, rfl⟩
  simp only [collection]
  cases command with
  | set key value =>
    rw [onMachine, Reading.answer_of_ok _ (MapMethod.on_set re owns key value)]
    exact ⟨rfl, _, Heap.owns_changeStore MapStore.lawful owns _, store.rows_insert _ key value⟩
  | get key =>
    rw [onMachine, Reading.answer_of_ok _ (MapMethod.on_get re owns key), store.get?_eq]
    exact ⟨rfl, store, owns, rfl⟩
  | has key =>
    rw [onMachine, Reading.answer_of_ok _ (MapMethod.on_has re owns key), store.contains_eq]
    exact ⟨rfl, store, owns, rfl⟩
  | delete key =>
    rw [onMachine, Reading.answer_of_ok _ (MapMethod.on_delete re owns key), store.contains_eq]
    exact ⟨rfl, _, Heap.owns_changeStore MapStore.lawful owns _, store.rows_erase _⟩
  | size =>
    rw [onMachine, Reading.answer_of_ok _ (MapMethod.on_size re owns), store.size_eq]
    exact ⟨rfl, store, owns, rfl⟩
  | clear =>
    rw [onMachine, Reading.answer_of_ok _ (MapMethod.on_clear re owns)]
    exact ⟨rfl, _, Heap.owns_changeStore MapStore.lawful owns _, MapStore.rows_empty⟩
  | keys =>
    rw [onMachine, Reading.answer_newArray (MapMethod.on_keys re owns), store.keys_eq]
    exact ⟨rfl, store, owns, rfl⟩
  | values =>
    rw [onMachine, Reading.answer_newArray (MapMethod.on_values re owns), store.values_eq]
    exact ⟨rfl, store, owns, rfl⟩
  | entries =>
    obtain ⟨listed, owner⟩ := Reading.answer_newRows (MapMethod.on_entries re owns)
    rw [store.pairs_eq, List.map_map] at listed
    exact ⟨listed, store, (congrFun owner r).trans owns, rfl⟩
  | meanwhile interlude => exact ⟨rfl, store, (interlude.keeps m).trans owns, rfl⟩

end MapCommand

/-! ### Construction -/

namespace MapStore

/-- Storing pairs one after another stores what setting them one after another sets, or fails on
the first item that is not a pair. -/
theorem foldlM_eq_settings (h : Heap) (this : Value) (items : List Value) (store : MapStore) :
    let stored := items.foldlM (fun (store : MapStore) item => do
      let (key, value) ← pairOf h MapMethod.construct.label item
      pure (store.insert (h.keyOf key) key value)) store
    match items.mapM (MapRequest.ofPair h) with
    | .error cause => stored = .error cause
    | .ok settings => ∃ built : MapStore, stored = .ok built ∧
        built.rows = (runSteps (MapRequest.onRows this) settings store.rows).2 := by
  induction items generalizing store with
  | nil => exact ⟨store, rfl, rfl⟩
  | cons item rest ih =>
    rw [List.mapM_cons, MapRequest.ofPair, List.foldlM_cons]
    cases pairOf h MapMethod.construct.label item with
    | error cause => rfl
    | ok pair =>
      have built := ih (store.insert (h.keyOf pair.1) pair.1 pair.2)
      rw [rows_insert] at built
      cases settings : rest.mapM (MapRequest.ofPair h) <;> rw [settings] at built <;> exact built

/-- The argument of a constructor stands for the rows that its settings leave, or both fail. -/
theorem ofArgument_eq_settings (h : Heap) (this : Value) (arg : Option Value) :
    match MapRequest.ofArgument h arg with
    | .error cause => ofArgument h MapMethod.construct.label arg = .error cause
    | .ok settings => ∃ built, ofArgument h MapMethod.construct.label arg = .ok built ∧
        built.rows = (runSteps (MapRequest.onRows this) settings []).2 := by
  match arg with
  | none | some .null => exact ⟨.empty, rfl, rfl⟩
  | some (.array r) => exact foldlM_eq_settings h this (h.items r) .empty
  | some (.boolean _) | some (.number _) | some (.text _) | some (.object _) | some (.function _)
  | some (.cls _) | some (.inst _) | some (.promise _) => rfl

end MapStore

theorem MapMethod.on_construct (re : Reentry) {r : Ref .inst} {m : Machine} (bare : m.heap.Bare r)
    (arg : Option Value) :
    (MapMethod.construct.call re (some (.inst r)) arg.toList).on m =
      match MapStore.ofArgument m.heap construct.label arg with
      | .error cause => (.error (.fault { cause }), m)
      | .ok store => (.ok .null, { m with heap := m.heap.setResource r (.map store) }) := by
  have argument : arg.toList[0]? = arg := by cases arg <;> rfl
  have checked : Arguments.between construct.label 0 1 arg.toList.length = .ok () := by
    cases arg <;> rfl
  simp only [call, checked, argument, Run.on_bind, Action.on_check_ok, Action.on_viewHeap]
  cases MapStore.ofArgument m.heap construct.label arg with
  | error cause => rfl
  | ok store => exact Native.on_attachToReceiver bare _ _

theorem MapCommand.constructsAsRows (re : Reentry) {r : Ref .inst} {m : Machine}
    (bare : m.heap.Bare r) (arg : Option Value) :
    (collection re r).ConstructsAsRows arg m := by
  have constructed := MapMethod.on_construct re bare arg
  have built := MapStore.ofArgument_eq_settings m.heap (.inst r) arg
  simp only [Collection.ConstructsAsRows, collection]
  split <;> rename_i settings <;> rw [settings] at built
  · rwa [built] at constructed
  · obtain ⟨store, stored, rows⟩ := built
    rw [stored] at constructed
    exact ⟨_, constructed, store, Heap.owns_setResource bare (.map store), rows⟩

end ScriptCore
