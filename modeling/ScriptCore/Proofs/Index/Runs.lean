import ScriptCore.Proofs.Index.View
import ScriptCore.Proofs.Runs

/-!
Runs of an index and of the list of its entries.

The commands of an index are carried out on an index and, as plain list operations, on a list of
entries. `runSteps_index_entries` says that no run can tell the two apart, and that in no state that
a run reaches a recorded place leads outside the slots or to a slot of another key, before and after
the slots are compacted.
-/

namespace ScriptCore.OrderedIndex

/-- What an index is asked to do or to tell. -/
inductive Command (K V : Type) where
  | insert (key : K) (value : V)
  /-- Sets the value of a key if the key is present. -/
  | replace (key : K) (value : V)
  | remove (key : K)
  | clear
  /-- Starts anew with the entries of a list, added one after another. -/
  | collect (entries : List (K × V))
  | get (key : K)
  | contains (key : K)
  | size
  | isEmpty
  | entries
  | keys
  | values

/-- What comes back. -/
inductive Answer (K V : Type) where
  | done
  | value (value : Option V)
  | truth (b : Bool)
  | count (n : Nat)
  | entries (entries : List (K × V))
  | keys (keys : List K)
  | values (values : List V)

variable {K V : Type} [DecidableEq K]

namespace Command

/-- Carries a command out on an index. -/
def onIndex [Fingerprint K] (command : Command K V) (ix : OrderedIndex K V) :
    Answer K V × OrderedIndex K V :=
  match command with
  | insert key value => (.value (ix.insert key value).1, (ix.insert key value).2)
  | replace key value => (.value (ix.replace key value).1, (ix.replace key value).2)
  | remove key => (.value (ix.erase key).1, (ix.erase key).2)
  | clear => (.done, empty)
  | collect more => (.done, ofList more)
  | get key => (.value (ix.get? key), ix)
  | contains key => (.truth (ix.contains key), ix)
  | size => (.count ix.size, ix)
  | isEmpty => (.truth ix.isEmpty, ix)
  | entries => (.entries ix.toList, ix)
  | keys => (.keys ix.keys, ix)
  | values => (.values ix.values, ix)

/-- Carries a command out on a list of entries. -/
def onEntries (command : Command K V) (listed : List (K × V)) : Answer K V × List (K × V) :=
  match command with
  | insert key value => (.value (listed.lookup key), Entries.put listed key value)
  | replace key value =>
    (.value (listed.lookup key),
      if key ∈ listed.map Prod.fst then Entries.put listed key value else listed)
  | remove key => (.value (listed.lookup key), Entries.without listed key)
  | clear => (.done, [])
  | collect more => (.done, Entries.putAll [] more)
  | get key => (.value (listed.lookup key), listed)
  | contains key => (.truth (decide (key ∈ listed.map Prod.fst)), listed)
  | size => (.count listed.length, listed)
  | isEmpty => (.truth listed.isEmpty, listed)
  | entries => (.entries listed, listed)
  | keys => (.keys (listed.map Prod.fst), listed)
  | values => (.values (listed.map Prod.snd), listed)

end Command

/-- The recorded places are those of the full slots: each lies inside the slots, and the slot there
holds exactly the key that the place is recorded for. -/
def PlacesLive [Fingerprint K] (ix : OrderedIndex K V) : Prop :=
  ∀ key place, ix.position? key = some place ↔
    ∃ (bound : place < ix.slots.size) (value : V), ix.slots[place] = some (key, value)

variable [Fingerprint K]

theorem placesLive (ix : OrderedIndex K V) : ix.PlacesLive := by
  intro key place
  rw [position?, ix.consistent.find?_iff]
  simp only [Array.getElem?_eq_some_iff]
  exact exists_comm

theorem size_le_slots (ix : OrderedIndex K V) : ix.size ≤ ix.slots.size := by
  rw [ix.size_eq_length, toList, entriesOf, ← Array.length_toList]
  exact List.length_filterMap_le id ix.slots.toList

/-- An index answers every command as the list of its entries does, and its entries become what
that list becomes. -/
theorem onIndex_eq_onEntries (command : Command K V) (ix : OrderedIndex K V) :
    (command.onIndex ix).1 = (command.onEntries ix.toList).1 ∧
      (command.onIndex ix).2.toList = (command.onEntries ix.toList).2 := by
  cases command with
  | insert key value =>
    exact ⟨congrArg Answer.value (ix.get?_eq_lookup key), ix.toList_set key value⟩
  | replace key value =>
    by_cases present : key ∈ ix.toList.map Prod.fst
    · have held := (ix.contains_iff key).2 present
      simp only [Command.onIndex, Command.onEntries, replace, held, if_true, if_pos present]
      exact ⟨congrArg Answer.value (ix.get?_eq_lookup key), ix.toList_set key value⟩
    · have missing : ix.contains key = false := by
        simpa using (not_congr (ix.contains_iff key)).2 present
      simp [Command.onIndex, Command.onEntries, replace, missing, present,
        Entries.lookup_of_notMem present]
  | remove key => exact ⟨congrArg Answer.value (ix.get?_eq_lookup key), ix.toList_remove key⟩
  | clear => exact ⟨rfl, toList_empty⟩
  | collect more => exact ⟨rfl, toList_ofList more⟩
  | get key => exact ⟨congrArg Answer.value (ix.get?_eq_lookup key), rfl⟩
  | contains key =>
    refine ⟨congrArg Answer.truth ?_, rfl⟩
    rw [Bool.eq_iff_iff, ix.contains_iff, decide_eq_true_iff]
  | size => exact ⟨congrArg Answer.count ix.size_eq_length, rfl⟩
  | isEmpty =>
    refine ⟨congrArg Answer.truth ?_, rfl⟩
    rw [Bool.eq_iff_iff, ix.isEmpty_iff, List.isEmpty_iff]
  | entries => exact ⟨rfl, rfl⟩
  | keys => exact ⟨rfl, rfl⟩
  | values => exact ⟨rfl, rfl⟩

/-- Over every run from the empty index, the answers are those of a list of entries with distinct
keys, and the entries are that list. In the state that the run reaches, the recorded places are
those of the full slots and no count falls below zero; the same holds of the state in which the
slot of a removed key has just been emptied and, with the same entries, of its compaction. -/
theorem runSteps_index_entries (commands : List (Command K V)) :
    let run := runSteps Command.onIndex commands (empty : OrderedIndex K V)
    let listed := runSteps Command.onEntries commands ([] : List (K × V))
    run.1 = listed.1 ∧ run.2.toList = listed.2 ∧ (listed.2.map Prod.fst).Nodup ∧
      run.2.PlacesLive ∧ run.2.size ≤ run.2.slots.size ∧
      ∀ key place (found : run.2.position? key = some place),
        let vacated := run.2.vacate key place found
        vacated.PlacesLive ∧ vacated.size ≤ vacated.slots.size ∧
          vacated.toList = Entries.without listed.2 key ∧
          vacated.compact.PlacesLive ∧ vacated.compact.toList = Entries.without listed.2 key := by
  intro run listed
  have refined := runSteps_simulates (fun (ix : OrderedIndex K V) listed => ix.toList = listed)
    (fun command (ix : OrderedIndex K V) _ (same : ix.toList = _) =>
      same ▸ onIndex_eq_onEntries command ix) commands (toList_empty (K := K) (V := V))
  obtain ⟨answers, entries⟩ := refined
  refine ⟨answers, entries, entries ▸ run.2.keys_nodup, run.2.placesLive, run.2.size_le_slots, ?_⟩
  intro key place found vacated
  have left : vacated.toList = Entries.without listed.2 key := by
    rw [← entries]
    exact run.2.toList_vacate found
  exact ⟨vacated.placesLive, vacated.size_le_slots, left, vacated.compact.placesLive,
    vacated.toList_compact.trans left⟩

/-- Sixteen entries, nine of which are removed again, are compacted on the ninth removal. -/
example :
    let names := ["a", "b", "c", "d", "e", "f", "g", "h", "i", "j", "k", "l", "m", "n", "o", "p"]
    let fill := names.map fun name => Command.insert name ()
    let drop := (names.take 9).map Command.remove
    let filled := (runSteps Command.onIndex fill (empty : OrderedIndex String Unit)).2
    ((runSteps Command.onIndex (drop.take 8) filled).2.slots.size,
      (runSteps Command.onIndex drop filled).2.slots.size,
      (runSteps Command.onIndex drop filled).2.position? "k") = (16, 7, some 1) := by
  decide

end ScriptCore.OrderedIndex
