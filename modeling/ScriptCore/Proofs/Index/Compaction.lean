import Mathlib.Algebra.BigOperators.Ring.List
import Mathlib.Algebra.Order.BigOperators.Group.List
import Mathlib.Algebra.Order.Group.Nat
import Mathlib.Algebra.Ring.Nat
import Mathlib.Data.List.ReduceOption
import ScriptCore.Proofs.Index.Runs

/-!
Vacancies, and what it takes to compact them.

The slot of a removed entry stays empty until the slots are compacted, and a compaction goes over
all of them. Two laws of single commands carry what is said of runs. The first: a removal leaves
few vacancies whatever the index was like before (`dense_compactIfSparse`), and every other command
leaves few if there were few (`Dense.onIndex`). The second: each removal leaves one vacancy, and a
vacancy stays until a compaction drops it or the index starts anew (`vacancies_onIndex`). An index
that is compacted has more vacancies than entries, so a compaction goes over less than two slots for
each vacancy that it drops. Together the compactions of a run drop no more vacancies than its
removals left.
-/

namespace ScriptCore.OrderedIndex

variable {K V : Type} [DecidableEq K] [Fingerprint K]

/-! ### Slots and vacancies -/

theorem slots_size_eq (ix : OrderedIndex K V) : ix.slots.size = ix.size + ix.vacancies := by
  have bound := ix.size_le_slots
  unfold vacancies
  omega

@[simp] theorem vacancies_empty : (empty : OrderedIndex K V).vacancies = 0 := rfl

/-- Setting a key empties no slot and fills none. -/
@[simp] theorem vacancies_set (ix : OrderedIndex K V) (key : K) (value : V) :
    (ix.set key value).vacancies = ix.vacancies := by
  rw [set]
  split <;> simp [vacancies]

theorem size_le_size_set (ix : OrderedIndex K V) (key : K) (value : V) :
    ix.size ≤ (ix.set key value).size := by
  rw [set]
  split <;> simp

@[simp] theorem vacancies_insertAll (ix : OrderedIndex K V) (entries : List (K × V)) :
    (ix.insertAll entries).vacancies = ix.vacancies := by
  induction entries generalizing ix with
  | nil => rfl
  | cons entry rest ih => rw [insertAll, List.foldl_cons, ← insertAll, ih, vacancies_set]

@[simp] theorem vacancies_ofList (entries : List (K × V)) :
    (ofList entries : OrderedIndex K V).vacancies = 0 := by
  rw [ofList, vacancies_insertAll, vacancies_empty]

theorem vacancies_vacate (ix : OrderedIndex K V) {key : K} {place : Nat}
    (found : ix.position? key = some place) :
    (ix.vacate key place found).vacancies = ix.vacancies + 1 := by
  obtain ⟨before, old, after, -, -, entries, -, -⟩ := ix.split found
  have counted : 0 < ix.size := by
    rw [ix.size_eq_length, entries, List.length_append, List.length_cons]
    omega
  have bound := ix.size_le_slots
  simp only [vacancies, vacate, Array.size_setIfInBounds]
  omega

/-- Compacting leaves a full slot for each entry, in order, and no other slot. -/
theorem slots_compact (ix : OrderedIndex K V) :
    ix.compact.slots.toList = ix.toList.map some := by
  rw [compact, Array.toList_filter, toList, entriesOf, List.map_filterMap,
    ← List.filterMap_eq_filter]
  congr 1
  funext slot
  cases slot <;> rfl

@[simp] theorem vacancies_compact (ix : OrderedIndex K V) : ix.compact.vacancies = 0 := by
  rw [vacancies, ← Array.length_toList, slots_compact, List.length_map, size_eq_length,
    toList_compact, Nat.sub_self]

theorem isSparse_iff (ix : OrderedIndex K V) :
    ix.isSparse = true ↔ compactionThreshold ≤ ix.slots.size ∧ ix.size < ix.vacancies := by
  simp [isSparse]

theorem slots_size_le_of_isSparse {ix : OrderedIndex K V} (sparse : ix.isSparse = true) :
    ix.slots.size ≤ 2 * ix.vacancies := by
  have slots := ix.slots_size_eq
  have few := (ix.isSparse_iff.1 sparse).2
  omega

/-! ### Removing, step by step -/

/-- The index in which the slot of a key has just been emptied, if the key is present. -/
def vacated? (ix : OrderedIndex K V) (key : K) : Option (OrderedIndex K V) :=
  match found : ix.position? key with
  | some place => some (ix.vacate key place found)
  | none => none

theorem vacated?_of_found {ix : OrderedIndex K V} {key : K} {place : Nat}
    (found : ix.position? key = some place) :
    ix.vacated? key = some (ix.vacate key place found) := by
  unfold vacated?
  split
  · next other found' =>
    cases found.symm.trans found'
    rfl
  · next absent => cases found.symm.trans absent

theorem vacated?_eq_none_iff (ix : OrderedIndex K V) (key : K) :
    ix.vacated? key = none ↔ ix.position? key = none := by
  unfold vacated?
  split <;> simp [*]

/-- Removing a key is emptying its slot and then compacting, if that has made the slots sparse. -/
theorem remove_eq (ix : OrderedIndex K V) (key : K) :
    ix.remove key = (ix.vacated? key).elim ix compactIfSparse := by
  unfold OrderedIndex.remove
  split
  · next place found => rw [vacated?_of_found found, Option.elim_some]
  · next absent => rw [(ix.vacated?_eq_none_iff key).2 absent, Option.elim_none]

/-! ### Few vacancies -/

/-- There are not more vacancies than entries, unless the slots are too few to be compacted. -/
def Dense (ix : OrderedIndex K V) : Prop := ix.vacancies ≤ max ix.size (compactionThreshold - 1)

theorem dense_of_vacancies_eq_zero {ix : OrderedIndex K V} (cleared : ix.vacancies = 0) :
    ix.Dense := by
  rw [Dense, cleared]
  exact Nat.zero_le _

/-- An index that is not compacted has few vacancies, one that is compacted has none left. -/
theorem dense_compactIfSparse (ix : OrderedIndex K V) : ix.compactIfSparse.Dense := by
  unfold compactIfSparse
  split
  · exact dense_of_vacancies_eq_zero ix.vacancies_compact
  · next full =>
    -- Either there are too few slots for more vacancies, or the entries are as many.
    have slots := ix.slots_size_eq
    rw [isSparse_iff] at full
    rw [Dense]
    omega

namespace Dense

variable {ix : OrderedIndex K V}

theorem set (dense : ix.Dense) (key : K) (value : V) : (ix.set key value).Dense := by
  have grown := ix.size_le_size_set key value
  rw [Dense] at dense ⊢
  rw [vacancies_set]
  omega

theorem remove (dense : ix.Dense) (key : K) : (ix.remove key).Dense := by
  rw [remove_eq]
  cases ix.vacated? key with
  | none => exact dense
  | some vacated => exact vacated.dense_compactIfSparse

theorem onIndex (dense : ix.Dense) (command : Command K V) : (command.onIndex ix).2.Dense := by
  cases command with
  | insert key value => exact dense.set key value
  | replace key value =>
    simp only [Command.onIndex, replace]
    split
    · exact dense.set key value
    · exact dense
  | remove key => exact dense.remove key
  | clear => exact dense_of_vacancies_eq_zero vacancies_empty
  | collect more => exact dense_of_vacancies_eq_zero (vacancies_ofList more)
  | get | contains | size | isEmpty | entries | keys | values => exact dense

end Dense

/-! ### What a command removes and compacts -/

namespace Command

/-- The index that a command compacts, if any, as it is just before. -/
def compacted? (command : Command K V) (ix : OrderedIndex K V) : Option (OrderedIndex K V) :=
  match command with
  | remove key => (ix.vacated? key).filter isSparse
  | _ => none

/-- How many entries a command removes, told by its answer. -/
def removals (command : Command K V) (ix : OrderedIndex K V) : Nat :=
  match command, (command.onIndex ix).1 with
  | remove _, .value (some _) => 1
  | _, _ => 0

/-- The vacancies that go together with all entries when an index starts anew. -/
def abandoned (command : Command K V) (ix : OrderedIndex K V) : Nat :=
  match command with
  | clear | collect _ => ix.vacancies
  | _ => 0

end Command

/-- What is compacted is sparse, and the command leads to what compacting it leaves. -/
theorem onIndex_of_compacted? {command : Command K V} {ix sparse : OrderedIndex K V}
    (compacts : command.compacted? ix = some sparse) :
    sparse.isSparse = true ∧ (command.onIndex ix).2 = sparse.compact := by
  cases command with
  | remove key =>
    obtain ⟨emptied, isSparse⟩ := Option.filter_eq_some_iff.1 compacts
    refine ⟨isSparse, ?_⟩
    rw [Command.onIndex, OrderedIndex.erase, remove_eq, emptied, Option.elim_some]
    exact if_pos isSparse
  | _ => cases compacts

theorem removals_remove_of_found {ix : OrderedIndex K V} {key : K} {place : Nat}
    (found : ix.position? key = some place) : (Command.remove key).removals ix = 1 := by
  have present := (ix.isSome_get?_iff key).2 ((ix.mem_keys_iff key).2 ⟨place, found⟩)
  obtain ⟨value, held⟩ := Option.isSome_iff_exists.1 present
  simp [Command.removals, Command.onIndex, OrderedIndex.erase, held]

theorem removals_remove_of_absent {ix : OrderedIndex K V} {key : K}
    (absent : ix.position? key = none) : (Command.remove key).removals ix = 0 := by
  have missing := (ix.get?_eq_none_iff key).2 ((ix.position?_eq_none_iff key).1 absent)
  simp [Command.removals, Command.onIndex, OrderedIndex.erase, missing]

theorem vacancies_compactIfSparse (ix : OrderedIndex K V) :
    ix.compactIfSparse.vacancies + ((some ix).filter isSparse).elim 0 vacancies =
      ix.vacancies := by
  unfold compactIfSparse
  rw [Option.filter_some]
  split <;> simp

theorem vacancies_remove (ix : OrderedIndex K V) (key : K) :
    (ix.remove key).vacancies + ((ix.vacated? key).filter isSparse).elim 0 vacancies =
      ix.vacancies + (Command.remove key).removals ix := by
  rw [remove_eq]
  cases found : ix.position? key with
  | none =>
    rw [(ix.vacated?_eq_none_iff key).2 found, removals_remove_of_absent found]
    rfl
  | some place =>
    rw [vacated?_of_found found, removals_remove_of_found found, Option.elim_some,
      vacancies_compactIfSparse, vacancies_vacate]

/-- Each removal leaves one vacancy. A vacancy stays until it is dropped by a compaction or goes
when the index starts anew. -/
theorem vacancies_onIndex (command : Command K V) (ix : OrderedIndex K V) :
    (command.onIndex ix).2.vacancies +
        ((command.compacted? ix).elim 0 vacancies + command.abandoned ix) =
      ix.vacancies + command.removals ix := by
  cases command with
  | insert key value => exact ix.vacancies_set key value
  | replace key value =>
    simp only [Command.onIndex, replace]
    split
    · exact ix.vacancies_set key value
    · rfl
  | remove key => exact ix.vacancies_remove key
  | clear => simp [Command.onIndex, Command.compacted?, Command.abandoned, Command.removals]
  | collect more =>
    simp [Command.onIndex, Command.compacted?, Command.abandoned, Command.removals]
  | get | contains | size | isEmpty | entries | keys | values => rfl

/-! ### Runs -/

/-- The indexes that a run compacts, each as it is just before. -/
def compactedAlong (commands : List (Command K V)) (ix : OrderedIndex K V) :
    List (OrderedIndex K V) :=
  (seenAlong Command.onIndex Command.compacted? commands ix).reduceOption

/-- How many entries a run removes. -/
def removalsAlong (commands : List (Command K V)) (ix : OrderedIndex K V) : Nat :=
  (seenAlong Command.onIndex Command.removals commands ix).sum

/-- How many vacancies go over a run because the index starts anew. -/
def abandonedAlong (commands : List (Command K V)) (ix : OrderedIndex K V) : Nat :=
  (seenAlong Command.onIndex Command.abandoned commands ix).sum

theorem isSparse_of_compactedAlong {commands : List (Command K V)} {ix sparse : OrderedIndex K V}
    (mem : sparse ∈ compactedAlong commands ix) : sparse.isSparse = true := by
  obtain ⟨_, _, _, -, compacts⟩ := mem_seenAlong.1 (List.reduceOption_mem_iff.1 mem)
  exact (onIndex_of_compacted? compacts).1

/-- Compactions go over less than two slots for each vacancy that they drop. -/
theorem sum_slots_size_le (commands : List (Command K V)) (ix : OrderedIndex K V) :
    ((compactedAlong commands ix).map fun sparse => sparse.slots.size).sum ≤
      2 * ((compactedAlong commands ix).map vacancies).sum := by
  rw [← List.sum_map_mul_left]
  exact List.sum_le_sum fun sparse mem =>
    slots_size_le_of_isSparse (isSparse_of_compactedAlong mem)

/-- What the removals of a run leave is still there, was dropped by a compaction or went when the
index started anew. -/
theorem vacancies_runSteps (commands : List (Command K V)) (ix : OrderedIndex K V) :
    (runSteps Command.onIndex commands ix).2.vacancies +
        (((compactedAlong commands ix).map vacancies).sum + abandonedAlong commands ix) =
      ix.vacancies + removalsAlong commands ix := by
  induction commands generalizing ix with
  | nil => rfl
  | cons command rest ih =>
    have now := vacancies_onIndex command ix
    have later := ih (command.onIndex ix).2
    simp only [runSteps, compactedAlong, abandonedAlong, removalsAlong, seenAlong, List.sum_cons]
      at later ⊢
    cases compacts : command.compacted? ix with
    | none =>
      rw [compacts, Option.elim_none] at now
      rw [List.reduceOption_cons_of_none]
      omega
    | some sparse =>
      rw [compacts, Option.elim_some] at now
      rw [List.reduceOption_cons_of_some, List.map_cons, List.sum_cons]
      omega

/-- Over every run from the empty index the vacancies stay few and removals pay for compactions.

After each command there are at most as many vacancies as entries, or at most fifteen. All
compactions together go over at most twice as many slots as entries are removed. Each removal leaves
one vacancy, and that is still there at the end, was dropped by a compaction or went when the index
started anew. What a compaction leaves is what its command leads to: the entries that the command
is to leave, in order, each in a slot, and no vacancy. -/
theorem vacancies_bounded_compactions_paid (commands : List (Command K V)) :
    (∀ n,
      let ix := (runSteps Command.onIndex (commands.take n) (empty : OrderedIndex K V)).2
      ix.vacancies ≤ max ix.size 15) ∧
    ((compactedAlong commands empty).map fun sparse => sparse.slots.size).sum ≤
      2 * removalsAlong commands empty ∧
    (runSteps Command.onIndex commands empty).2.vacancies +
        (((compactedAlong commands empty).map vacancies).sum + abandonedAlong commands empty) =
      removalsAlong commands empty ∧
    ∀ (command : Command K V) (ix sparse : OrderedIndex K V),
      command.compacted? ix = some sparse →
        (command.onIndex ix).2 = sparse.compact ∧
          sparse.toList = (command.onEntries ix.toList).2 ∧
          sparse.compact.slots.toList = sparse.toList.map some ∧ sparse.compact.vacancies = 0 := by
  have conserved := vacancies_runSteps commands (empty : OrderedIndex K V)
  rw [vacancies_empty, Nat.zero_add] at conserved
  refine ⟨fun n => ?_, ?_, conserved, ?_⟩
  · have keeps : ∀ (command : Command K V) (ix : OrderedIndex K V),
        ix.Dense → (command.onIndex ix).2.Dense := fun command _ dense => dense.onIndex command
    exact runSteps_keeps keeps (commands.take n) (dense_of_vacancies_eq_zero vacancies_empty)
  · have paid := sum_slots_size_le commands (empty : OrderedIndex K V)
    omega
  · intro command ix sparse compacts
    have leads := (onIndex_of_compacted? compacts).2
    have entries := (onIndex_eq_onEntries command ix).2
    rw [leads, toList_compact] at entries
    exact ⟨leads, entries, sparse.slots_compact, sparse.vacancies_compact⟩

/-- Of seventeen entries nine are removed: the ninth removal compacts seventeen slots. -/
example :
    let names := ["a", "b", "c", "d", "e", "f", "g", "h", "i", "j", "k", "l", "m", "n", "o", "p",
      "q"]
    let commands := names.map (fun name => Command.insert name ()) ++
      (names.take 9).map Command.remove
    (compactedAlong commands (empty : OrderedIndex String Unit)).map (fun sparse =>
      sparse.slots.size) = [17] ∧
      removalsAlong commands (empty : OrderedIndex String Unit) = 9 := by
  decide

end ScriptCore.OrderedIndex
