import Mathlib.Logic.Relation
import ScriptCore.Native.Arrays
import ScriptCore.Proofs.Collections.Maps
import ScriptCore.Proofs.Collections.Sets
import ScriptCore.Proofs.Conduct.Balance
import ScriptCore.Proofs.Frames
import ScriptCore.Proofs.Sorting.Comparisons

/-!
Sorting the keys of a container and sorting an array.

Both sorts ask a comparator about values, one about the values that keys are sorted by. A comparator
is a function of the script, and each question is a call of it that may do anything. If all the same
it decides alike for the same two values, then the sorts run alike, and so what one of them does to
a list tells what the other does to the list under any decoration.
-/

namespace ScriptCore

/-! ### Comparators that decide by their arguments -/

/-- A call of the comparator with two values, whatever is held, takes the first machine to the
second one. -/
def Consulting (re : Reentry) (comparator : Option (Ref .function)) (m n : Machine) : Prop :=
  ∃ f holds a b, comparator = some f ∧ ((re.call holds f [a, b] none).on m).2 = n

/-- Calls of the comparator, any number of them, take the first machine to the second one. -/
abbrev Consulted (re : Reentry) (comparator : Option (Ref .function)) :
    Machine → Machine → Prop := Relation.ReflTransGen (Consulting re comparator)

/-- How the comparator orders two values, or that it fails to, depends on the two alone: neither on
what is held nor on the calls of the comparator that come before. -/
def Judges (re : Reentry) (comparator : Option (Ref .function))
    (order : Value → Value → Option Ordering) (m : Machine) : Prop :=
  ∀ n, Consulted re comparator m n → ∀ holds a b,
    ((Native.compareBy { re with holds } comparator a b).on n).1.toOption = order a b

section Judging

variable {re : Reentry} {comparator : Option (Ref .function)}
  {order : Value → Value → Option Ordering} {m n : Machine}

/-- The default order asks nobody. -/
theorem judges_none (re : Reentry) (m : Machine) :
    Judges re none (fun a b => some (a.defaultCompare b)) m := by
  intro n _ holds a b
  rfl

theorem Judges.after (judges : Judges re comparator order m)
    (consulted : Consulted re comparator m n) : Judges re comparator order n := by
  intro _ later
  exact judges _ (consulted.trans later)

/-- Comparing two values is at most one call of the comparator. -/
theorem consulted_compareBy (holds : List Hold) (a b : Value) (m : Machine) :
    Consulted re comparator m
      ((Native.compareBy { re with holds } comparator a b).on m).2 := by
  cases comparator with
  | none => exact .refl
  | some f =>
    apply Relation.ReflTransGen.single
    refine ⟨f, holds, a, b, rfl, ?_⟩
    simp only [Native.compareBy, Reentry.invoke, Run.on_bind]
    cases (re.call holds f [a, b] none).on m with
    | mk result n =>
      cases result with
      | error failure => rfl
      | ok v =>
        simp only
        cases v.comparatorOrder <;> rfl

/-- An inquiry that is answered by the comparator comes to what the orders alone come to. -/
theorem run_judged {α β : Type} (p : Inquiry α β) (value : α → Value) (holds : List Hold)
    (judges : Judges re comparator order m) :
    let run := p.run fun a b => Native.compareBy { re with holds } comparator (value a) (value b)
    Consulted re comparator m (run.on m).2 ∧
      (run.on m).1.toOption = p.run fun a b => order (value a) (value b) := by
  induction p generalizing m with
  | ended result => exact ⟨.refl, rfl⟩
  | asks a b branches ih =>
    have consulted : Consulted re comparator m _ :=
      consulted_compareBy holds (value a) (value b) m
    have decided := judges m .refl holds (value a) (value b)
    simp only [Inquiry.run, Run.on_bind, ← decided]
    cases asked : (Native.compareBy { re with holds } comparator (value a) (value b)).on m with
    | mk answer n =>
      rw [asked] at consulted
      cases answer with
      | error failure => exact ⟨consulted, rfl⟩
      | ok given =>
        obtain ⟨later, same⟩ := ih given (judges.after consulted)
        exact ⟨consulted.trans later, same⟩

end Judging

/-! ### Sorting actions -/

/-- The action makes a new array of the items, or it fails. Beside that it only calls the
comparator. -/
inductive SortsTo (re : Reentry) (comparator : Option (Ref .function)) (action : Action Value)
    (m : Machine) : Option (List Value) → Prop
  | sorted {n n' : Machine} {r : Ref .array} {items : List Value}
    (consulted : Consulted re comparator m n) (gives : action.on m = (.ok (.array r), n'))
    (fresh : n.heap.arrays.get? r = none) (holds : n'.heap.items r = items)
    (frame : n.Frame none n') : SortsTo re comparator action m (some items)
  | failed {n : Machine} {failure : Failure} (consulted : Consulted re comparator m n)
    (fails : action.on m = (.error failure, n)) : SortsTo re comparator action m none

section Sorts

variable {re : Reentry} {comparator : Option (Ref .function)}
  {order : Value → Value → Option Ordering} {m : Machine}

/-- Sorting entries by their values and making an array of their keys. -/
theorem sortsTo_of_judged {α : Type} (action : Action Value)
    (judges : Judges re comparator order m) (holds : List Hold) (value key : α → Value)
    (entries : List α)
    (runs : action.on m = (do
      let sorted ← Sort.stableSort
        (fun a b => Native.compareBy { re with holds } comparator (value a) (value b)) entries
      Action.newArray (sorted.map key) : Action Value).on m) :
    SortsTo re comparator action m
      ((Sort.stableSort (fun a b => order (value a) (value b)) entries).map (List.map key)) := by
  rw [← Sort.run_stableSort] at runs ⊢
  obtain ⟨consulted, same⟩ := run_judged (Sort.stableSort Inquiry.ask entries) value holds judges
  rw [← same]
  rw [Run.on_bind] at runs
  cases done : Run.on (Inquiry.run (fun a b => Native.compareBy { re with holds } comparator
      (value a) (value b)) (Sort.stableSort Inquiry.ask entries)) m with
  | mk result n =>
    rw [done] at runs consulted
    cases result with
    | error failure => exact .failed consulted runs
    | ok sorted =>
      have adds := n.addsArray_newArray (sorted.map key)
      exact .sorted consulted runs adds.fresh adds.holds (adds.frame none)

/-- What follows the first argument of a sort, and the comparator that it stands for. -/
inductive ComparatorGiven : List Value → Option (Ref .function) → Prop
  | absent : ComparatorGiven [] none
  | null : ComparatorGiven [.null] none
  | function (f : Ref .function) : ComparatorGiven [.function f] (some f)

variable {args : List Value}

theorem ComparatorGiven.count (given : ComparatorGiven args comparator) (name : String)
    (v : Value) : Arguments.between name 1 2 (v :: args).length = .ok () := by
  cases given <;> rfl

theorem ComparatorGiven.function? (given : ComparatorGiven args comparator) (name : String)
    (v : Value) : Arguments.function? name (v :: args) 1 = .ok comparator := by
  cases given <;> rfl

/-- How `sort` runs. -/
theorem ArrayFunction.on_sort (given : ComparatorGiven args comparator) (r : Ref .array) :
    (ArrayFunction.sort.call re (.array r :: args)).on m = (do
      let sorted ← Sort.stableSort
        (Native.compareBy (re.holding (m.heap.items r)) comparator) (m.heap.items r)
      Action.newArray sorted : Action Value).on m := by
  have counted := given.count ArrayFunction.sort.name (.array r)
  have found := given.function? ArrayFunction.sort.name (.array r)
  simp only [ArrayFunction.call, ArrayFunction.checkCount, counted, found, Arguments.array,
    List.getElem?_cons_zero, Run.on_bind, Action.on_check_ok, Action.on_readHeap]

/-- How `keysSorted` runs on a container that has keys. -/
theorem Native.on_keysSorted (given : ComparatorGiven args comparator) {container : Value}
    {entries : List (Value × Value)} (listed : sortableKeys m.heap container = .ok entries) :
    (keysSorted re (container :: args)).on m = (do
      let sorted ← Sort.stableSort (fun a b => compareBy
        ((re.holding (entries.map Prod.fst)).holding (entries.map Prod.snd)) comparator a.2 b.2)
        entries
      Action.newArray (sorted.map Prod.fst) : Action Value).on m := by
  have counted := given.count "keysSorted" container
  have found := given.function? "keysSorted" container
  simp only [keysSorted, counted, found, Run.on_bind, Action.on_check_ok, Action.on_viewHeap,
    List.getD_cons_zero, listed]

/-- `sort` sorts the items of the array. -/
theorem ArrayFunction.sortsTo_sort (given : ComparatorGiven args comparator)
    (judges : Judges re comparator order m) (r : Ref .array) :
    SortsTo re comparator (ArrayFunction.sort.call re (.array r :: args)) m
      (Sort.stableSort order (m.heap.items r)) := by
  have sorts := sortsTo_of_judged (ArrayFunction.sort.call re (.array r :: args)) judges
    (re.holding (m.heap.items r)).holds id id (m.heap.items r)
  simp only [List.map_id_fun, id_eq, Option.map_id] at sorts
  exact sorts (on_sort given r)

/-- `keysSorted` sorts the keys of the container by what they are sorted by. -/
theorem Native.sortsTo_keysSorted (given : ComparatorGiven args comparator)
    (judges : Judges re comparator order m) {container : Value} {entries : List (Value × Value)}
    (listed : sortableKeys m.heap container = .ok entries) :
    SortsTo re comparator (keysSorted re (container :: args)) m
      ((Sort.stableSort (fun a b => order a.2 b.2) entries).map (List.map Prod.fst)) :=
  sortsTo_of_judged _ judges _ Prod.snd Prod.fst entries (on_keysSorted given listed)

end Sorts

/-! ### Arrays -/

section Places

variable {order : Value → Value → Option Ordering} {items : List Value}

/-- The places of the items of a list in the order into which a sort brings the items. -/
def sortedPlaces (order : Value → Value → Option Ordering) (items : List Value) :
    Option (List Nat) :=
  (Sort.stableSort (fun a b => order a.1 b.1) items.zipIdx).map (List.map Prod.snd)

theorem sortedPlaces_eq_some {places : List Nat} (gives : sortedPlaces order items = some places) :
    ∃ marked : List (Value × Nat), marked.map Prod.snd = places ∧ marked.Perm items.zipIdx := by
  obtain ⟨marked, sorted, rfl⟩ := Option.map_eq_some_iff.1 gives
  exact ⟨marked, rfl, Sort.perm_of_stableSort sorted⟩

theorem perm_of_sortedPlaces {places : List Nat} (gives : sortedPlaces order items = some places) :
    places.Perm (List.range items.length) := by
  obtain ⟨marked, rfl, perm⟩ := sortedPlaces_eq_some gives
  have places := perm.map Prod.snd
  rwa [List.zipIdx_map_snd, ← List.range_eq_range'] at places

/-- Reading the items at their sorted places sorts the items. -/
theorem read_sortedPlaces (order : Value → Value → Option Ordering) (items : List Value) :
    (sortedPlaces order items).map (List.map fun place => items.getD place .null) =
      Sort.stableSort order items := by
  have sorts := Sort.map_stableSort Prod.fst order items.zipIdx
  rw [List.zipIdx_map_fst] at sorts
  rw [← sorts, sortedPlaces, Option.map_map]
  refine Option.map_congr fun marked gives => ?_
  have perm := Sort.perm_of_stableSort gives
  rw [Function.comp_apply, List.map_map]
  refine List.map_congr_left fun entry member => ?_
  have found := List.mem_zipIdx_iff_getElem?.1 (perm.mem_iff.1 member)
  simp [found]

end Places

/-- `keysSorted` of an array gives the sorted places of its items. -/
theorem Native.sortsTo_keysSorted_array {re : Reentry} {comparator : Option (Ref .function)}
    {order : Value → Value → Option Ordering} {m : Machine} {args : List Value}
    (given : ComparatorGiven args comparator) (judges : Judges re comparator order m)
    (r : Ref .array) :
    SortsTo re comparator (keysSorted re (.array r :: args)) m
      ((sortedPlaces order (m.heap.items r)).map (List.map Value.ofNat)) := by
  have listed : sortableKeys m.heap (.array r) = .ok _ := rfl
  have sorts := sortsTo_keysSorted given judges listed
  have decorated := Sort.map_stableSort
    (fun entry : Value × Nat => (Value.ofNat entry.2, entry.1)) (fun a b => order a.2 b.2)
    (m.heap.items r).zipIdx
  rw [Option.map_eq_map] at decorated
  rw [sortedPlaces, Option.map_map]
  rw [← decorated, Option.map_map] at sorts
  simpa only [Function.comp_def, List.map_map] using sorts

/-! ### Other containers -/

/-- The container has these keys: a Map or a Set those in its store, an object the names of its
entries, and an object that holds an array of arrays as its pairs the first element of each. -/
inductive Heap.HasKeys (h : Heap) : Value → List Value → Prop
  | map {r : Ref .inst} {store : MapStore} (owns : h.Owns r (.map store)) :
    HasKeys h (.inst r) store.keys
  | set {r : Ref .inst} {store : SetStore} (owns : h.Owns r (.set store)) :
    HasKeys h (.inst r) store.values
  | object {r : Ref .object}
    (plain : ∀ pairs, (h.entries r).get? Native.pairsName ≠ some (.array pairs)) :
    HasKeys h (.object r) ((h.entries r).keys.map Value.text)
  | pairs {r : Ref .object} {pairs : Ref .array} {keys : List Value}
    (holds : (h.entries r).get? Native.pairsName = some (.array pairs))
    (firsts : List.Forall₂ (fun pair key => ∃ s rest, pair = .array s ∧ h.items s = key :: rest)
      (h.items pairs) keys) : HasKeys h (.object r) keys

/-- The keys of pairs are read one after another. -/
theorem Native.mapM_keyOfPair {h : Heap} {pairs keys : List Value}
    (firsts : List.Forall₂ (fun pair key => ∃ s rest, pair = .array s ∧ h.items s = key :: rest)
      pairs keys) : pairs.mapM (keyOfPair h) = .ok keys := by
  induction firsts with
  | nil => rfl
  | cons first _ ih =>
    obtain ⟨s, rest, rfl, holds⟩ := first
    rw [List.mapM_cons, ih, keyOfPair, holds]
    rfl

theorem Heap.HasKeys.sortable {h : Heap} {container : Value} {keys : List Value}
    (has : h.HasKeys container keys) :
    Native.sortableKeys h container = .ok (Native.selfKeyed keys) := by
  cases has with
  | map owns => simp [Native.sortableKeys, Heap.store?, resource_of_owns owns, StoreType.map]
  | set owns =>
    simp [Native.sortableKeys, Heap.store?, resource_of_owns owns, StoreType.map, StoreType.set]
  | object plain => simp only [Native.sortableKeys, Native.selfKeyed]
  | pairs holds firsts =>
    simp only [Native.sortableKeys, holds, Native.mapM_keyOfPair firsts]
    rfl

/-- Sorting keys that stand for themselves. -/
theorem Native.sortsTo_keysSorted_keys {re : Reentry} {comparator : Option (Ref .function)}
    {order : Value → Value → Option Ordering} {m : Machine} {args : List Value}
    (given : ComparatorGiven args comparator) (judges : Judges re comparator order m)
    {container : Value} {keys : List Value} (has : m.heap.HasKeys container keys) :
    SortsTo re comparator (keysSorted re (container :: args)) m (Sort.stableSort order keys) := by
  have sorts := sortsTo_keysSorted given judges has.sortable
  have decorated := Sort.map_stableSort (fun key : Value => (key, key))
    (fun a b => order a.2 b.2) keys
  rw [Option.map_eq_map] at decorated
  rw [selfKeyed, ← decorated, Option.map_map] at sorts
  simpa only [Function.comp_def, List.map_map, List.map_id', Option.map_id'] using sorts

/-! ### Agreement -/

/-- A comparator whose verdicts depend on its two arguments alone, or none, makes `keysSorted` agree
with `sort`.

On an array the one succeeds exactly if the other does; then the one gives a rearrangement of the
places of the items, and the other the items at those places in order. On a container with other
keys the one comes to what the other comes to on an array of those keys, which are those that
`keys()` of a Map and `values()` of a Set give in a new array. Neither changes anything itself but
for a new array. -/
theorem keysSorted_agrees_with_sort (re : Reentry) {comparator : Option (Ref .function)}
    {args : List Value} (given : ComparatorGiven args comparator)
    {order : Value → Value → Option Ordering} {m n : Machine}
    (judges : ∀ f, comparator = some f →
      Judges re (some f) order m ∧ Judges re (some f) order n) :
    (∀ r s, m.heap.items r = n.heap.items s → ∃ places : Option (List Nat),
      (∀ found ∈ places, found.Perm (List.range (n.heap.items s).length)) ∧
      SortsTo re comparator (Native.keysSorted re (.array r :: args)) m
        (places.map (List.map Value.ofNat)) ∧
      SortsTo re comparator (ArrayFunction.sort.call re (.array s :: args)) n
        (places.map (List.map fun place => (n.heap.items s).getD place .null))) ∧
    (∀ container s, m.heap.HasKeys container (n.heap.items s) → ∃ sorted : Option (List Value),
      SortsTo re comparator (Native.keysSorted re (container :: args)) m sorted ∧
      SortsTo re comparator (ArrayFunction.sort.call re (.array s :: args)) n sorted) ∧
    (∀ r store, m.heap.Owns r (.map store) →
      (MapMethod.keys.call re (some (.inst r)) []).MakesArray store.keys m) ∧
    (∀ r store, m.heap.Owns r (.set store) →
      (SetMethod.values.call re (some (.inst r)) []).MakesArray store.values m) := by
  obtain ⟨order, judgesKeys, judgesItems⟩ : ∃ order, Judges re comparator order m ∧
      Judges re comparator order n := by
    cases comparator with
    | none => exact ⟨_, judges_none re m, judges_none re n⟩
    | some f => exact ⟨order, judges f rfl⟩
  refine ⟨fun r s same => ?_, fun container s has => ?_, ?_, ?_⟩
  · refine ⟨sortedPlaces order (n.heap.items s), fun places => perm_of_sortedPlaces, ?_, ?_⟩
    · rw [← same]
      exact Native.sortsTo_keysSorted_array given judgesKeys r
    · rw [read_sortedPlaces]
      exact ArrayFunction.sortsTo_sort given judgesItems s
  · refine ⟨Sort.stableSort order (n.heap.items s), ?_, ?_⟩
    · exact Native.sortsTo_keysSorted_keys given judgesKeys has
    · exact ArrayFunction.sortsTo_sort given judgesItems s
  · intro r store owns
    exact Action.makesArray_of_newArray (MapMethod.on_keys re owns)
  · intro r store owns
    exact Action.makesArray_of_newArray (SetMethod.on_values re owns)

/-- A comparator that finds anything greater than anything. -/
def contrary : Callable := .native "greater" (.body [.literal (.boolean true)])

/-- A machine with that comparator and an array of three numbers. -/
def threeNumbers : Machine :=
  { Machine.fresh
    { functions := ⟨#[contrary]⟩
      arrays := ⟨#[#[.ofNat 10, .ofNat 30, .ofNat 20]]⟩ } with polling := false }

/-- Machines in which a call of that comparator is entered at once. -/
structure Ready (m : Machine) : Prop where
  silent : m.polling = false
  unlimited : m.calls.limit = none
  defined : m.heap.callable ⟨0⟩ = contrary

/-- What that comparator does, once it is entered. -/
theorem on_work_contrary {m : Machine} (defined : m.heap.callable ⟨0⟩ = contrary)
    (holds : List Hold) (args : List Value) :
    ∃ scopes arrays, (Interpreter.work 0 holds ⟨0⟩ args none).on m =
      (.ok (.boolean true), { m with heap := { m.heap with scopes, arrays } }) := by
  rw [Interpreter.work, Interpreter.on_perform, defined, contrary]
  exact ⟨_, _, rfl⟩

theorem Ready.call {m : Machine} (ready : Ready m) (holds : List Hold) (args : List Value) :
    ∃ n, ((Interpreter.reentry 1).call holds ⟨0⟩ args none).on m = (.ok (.boolean true), n) ∧
      Ready n := by
  have room : m.calls.push (m.heap.functionName ⟨0⟩) =
      .ok (m.calls.cons (m.heap.functionName ⟨0⟩)) := by
    rw [CallStack.push, ready.unlimited]
  have entered := Interpreter.invoke_of_room 0 holds ⟨0⟩ args none
    (Invocation.on_poll_of_not_polling _ ready.silent) room
  obtain ⟨scopes, arrays, worked⟩ := on_work_contrary
    (m := m.entering ⟨0⟩ (m.calls.cons (m.heap.functionName ⟨0⟩))) ready.defined holds args
  rw [Invocation.on_traced_of_ok worked, worked] at entered
  exact ⟨_, entered, ready.silent, ready.unlimited, ready.defined⟩

theorem judges_contrary {m : Machine} (ready : Ready m) :
    Judges (Interpreter.reentry 1) (some ⟨0⟩) (fun _ _ => some .gt) m := by
  intro n consulted holds a b
  have there : Ready n := by
    induction consulted with
    | refl => exact ready
    | tail _ step ih =>
      obtain ⟨f, holds, a, b, ⟨⟩, rfl⟩ := step
      obtain ⟨n, called, ready⟩ := ih.call holds [a, b]
      rwa [called]
  obtain ⟨n', called, -⟩ := there.call holds [a, b]
  have invoked : ({ Interpreter.reentry 1 with holds } : Reentry).invoke ⟨0⟩ [a, b] none =
      (Interpreter.reentry 1).call holds ⟨0⟩ [a, b] none := rfl
  rw [Native.compareBy, invoked, Run.on_bind_of_ok called]
  rfl

/-- Although that comparator contradicts itself, the places and the numbers at them go together. -/
theorem keysSorted_agrees_with_sort_contrary :
    Judges (Interpreter.reentry 1) (some ⟨0⟩) (fun _ _ => some .gt) threeNumbers ∧
      ∃ places : Option (List Nat), (∀ found ∈ places, found.Perm (List.range 3)) ∧
        SortsTo (Interpreter.reentry 1) (some ⟨0⟩)
          (Native.keysSorted (Interpreter.reentry 1) [.array ⟨0⟩, .function ⟨0⟩]) threeNumbers
          (places.map (List.map Value.ofNat)) ∧
        SortsTo (Interpreter.reentry 1) (some ⟨0⟩)
          (ArrayFunction.sort.call (Interpreter.reentry 1) [.array ⟨0⟩, .function ⟨0⟩])
          threeNumbers
          (places.map (List.map fun place => ([10, 30, 20].map Value.ofNat).getD place .null)) := by
  have judges := judges_contrary (m := threeNumbers) ⟨rfl, rfl, rfl⟩
  obtain ⟨arrays, -⟩ := keysSorted_agrees_with_sort (Interpreter.reentry 1)
    (.function ⟨0⟩) (m := threeNumbers) (n := threeNumbers) (by
      rintro f ⟨⟩
      exact ⟨judges, judges⟩)
  exact ⟨judges, arrays ⟨0⟩ ⟨0⟩ rfl⟩

end ScriptCore
