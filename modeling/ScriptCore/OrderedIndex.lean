import ScriptCore.Positions

/-!
An index that remembers insertion order.

Entries stand in a sequence of slots, and a table of positions leads from a key to its slot.
Removing an entry empties its slot; once the empty slots outnumber the entries of a sequence that
is not short, the sequence is compacted and the positions are recorded anew. Replacing the value
of a present key keeps its place; a removed key that returns goes to the end.

An index carries the proof that its parts agree (`Consistent`): the table leads from a key to the
one slot that holds it, and from no key that no slot holds. So every place that is read or written
lies inside the sequence, whatever the history of the index is.
-/

namespace ScriptCore

namespace OrderedIndex

variable {K V : Type}

/-- The entries in a sequence of slots, in order. -/
def entriesOf (slots : Array (Option (K × V))) : List (K × V) := slots.toList.filterMap id

/-- The keys in a sequence of slots, each with the place of its slot. -/
def recorded (slots : Array (Option (K × V))) : List (K × Nat) :=
  slots.toList.zipIdx.filterMap fun (slot, place) => slot.map fun entry => (entry.1, place)

theorem mem_recorded {slots : Array (Option (K × V))} {key : K} {place : Nat} :
    (key, place) ∈ recorded slots ↔ ∃ value, slots[place]? = some (some (key, value)) := by
  rw [recorded, List.mem_filterMap]
  constructor
  · rintro ⟨⟨slot, i⟩, member, shown⟩
    obtain ⟨⟨k, value⟩, rfl, same⟩ := Option.map_eq_some_iff.1 shown
    obtain ⟨rfl, rfl⟩ := Prod.mk.inj same
    exact ⟨value, by simpa [List.mem_zipIdx_iff_getElem?] using member⟩
  · rintro ⟨value, held⟩
    exact ⟨(some (key, value), place), by simpa [List.mem_zipIdx_iff_getElem?] using held, rfl⟩

theorem keys_recorded (slots : Array (Option (K × V))) :
    (recorded slots).map Prod.fst = (entriesOf slots).map Prod.fst := by
  have countedFrom (l : List (Option (K × V))) (n : Nat) :
      ((l.zipIdx n).filterMap fun (slot, place) =>
        slot.map fun entry => (entry.1, place)).map Prod.fst = (l.filterMap id).map Prod.fst := by
    induction l generalizing n with
    | nil => rfl
    | cons slot rest ih => cases slot <;> simp [List.zipIdx_cons, ih]
  exact countedFrom slots.toList 0

/-- Leaving out the empty slots leaves the entries as they are. -/
theorem entriesOf_filter_isSome (slots : Array (Option (K × V))) :
    entriesOf (slots.filter Option.isSome) = entriesOf slots := by
  rw [entriesOf, Array.toList_filter, List.filterMap_filter, entriesOf]
  congr 1
  funext slot
  cases slot <;> rfl

/-! ### Agreement of the parts -/

variable [DecidableEq K] [Fingerprint K]

/-- How the parts of an index agree: the table leads from a key to the one slot that holds the key,
and from no key that no slot holds; the size counts the entries. -/
structure Consistent (slots : Array (Option (K × V))) (positions : Positions K) (size : Nat) :
    Prop where
  find?_iff : ∀ key place,
    positions.find? key = some place ↔ ∃ value, slots[place]? = some (some (key, value))
  size_eq : size = (entriesOf slots).length

namespace Consistent

variable {slots : Array (Option (K × V))} {positions : Positions K} {size : Nat}
  {key : K} {place : Nat}

theorem empty : Consistent (#[] : Array (Option (K × V))) .empty 0 where
  find?_iff := by simp [Positions.find?_empty]
  size_eq := rfl

/-- No two entries have the same key: the table would have to lead to both. -/
theorem keys_nodup (consistent : Consistent slots positions size) :
    ((entriesOf slots).map Prod.fst).Nodup := by
  rw [List.Nodup, List.pairwise_map, entriesOf, List.pairwise_filterMap,
    List.pairwise_iff_getElem]
  rintro i j hi hj before ⟨key, value⟩ first ⟨other, value'⟩ second rfl
  have foundFirst := (consistent.find?_iff key i).2 ⟨value, by
    simpa [Array.getElem?_eq_some_iff] using ⟨by simpa using hi, first⟩⟩
  have foundSecond := (consistent.find?_iff key j).2 ⟨value', by
    simpa [Array.getElem?_eq_some_iff] using ⟨by simpa using hj, second⟩⟩
  rw [foundFirst, Option.some.injEq] at foundSecond
  omega

/-- The slot that the table leads to splits the sequence. -/
theorem split (consistent : Consistent slots positions size)
    (found : positions.find? key = some place) :
    ∃ before old after, slots.toList = before ++ some (key, old) :: after ∧
      before.length = place := by
  obtain ⟨old, slot⟩ := (consistent.find?_iff key place).1 found
  obtain ⟨bound, held⟩ := Array.getElem?_eq_some_iff.1 slot
  refine ⟨slots.toList.take place, old, slots.toList.drop (place + 1), ?_, ?_⟩
  · rw [← held, ← Array.getElem_toList, List.getElem_cons_drop, List.take_append_drop]
  · simp only [List.length_take, Array.length_toList]
    omega

/-- The parts agree after the value of a present key is replaced. -/
theorem overwrite (consistent : Consistent slots positions size)
    (found : positions.find? key = some place) (value : V) :
    Consistent (slots.setIfInBounds place (some (key, value))) positions size where
  find?_iff := by
    intro other i
    rw [consistent.find?_iff, Array.getElem?_setIfInBounds]
    obtain ⟨old, slot⟩ := (consistent.find?_iff key place).1 found
    obtain ⟨bound, held⟩ := Array.getElem?_eq_some_iff.1 slot
    by_cases here : place = i
    · subst here
      simp [held, bound]
    · simp [here]
  size_eq := by
    obtain ⟨before, old, after, parts, rfl⟩ := consistent.split found
    rw [consistent.size_eq]
    simp [entriesOf, parts]

/-- The parts agree after a new key goes to the end. -/
theorem push (consistent : Consistent slots positions size) (absent : positions.find? key = none)
    (value : V) :
    Consistent (slots.push (some (key, value))) (positions.insert key slots.size) (size + 1) where
  find?_iff := by
    intro other i
    rw [Array.getElem?_push]
    by_cases same : other = key
    · subst same
      rw [Positions.find?_insert_self]
      have nowhere : ∀ value, slots[i]? ≠ some (some (other, value)) := fun value held => by
        simpa [absent] using (consistent.find?_iff other i).2 ⟨value, held⟩
      split <;> simp_all [eq_comm]
    · rw [Positions.find?_insert_of_ne same, consistent.find?_iff]
      split
      · simp_all [eq_comm]
      · rfl
  size_eq := by simp [entriesOf, consistent.size_eq]

/-- The parts agree after the slot of a key is emptied and the key forgotten. -/
theorem vacate (consistent : Consistent slots positions size)
    (found : positions.find? key = some place) :
    Consistent (slots.setIfInBounds place none) (positions.erase key) (size - 1) where
  find?_iff := by
    intro other i
    obtain ⟨old, slot⟩ := (consistent.find?_iff key place).1 found
    obtain ⟨bound, held⟩ := Array.getElem?_eq_some_iff.1 slot
    rw [Array.getElem?_setIfInBounds]
    by_cases same : other = key
    · subst same
      rw [Positions.find?_erase_self]
      by_cases here : place = i
      · simp [here]
      · have nowhere : ∀ value, slots[i]? ≠ some (some (other, value)) := fun value held =>
          here (Option.some.inj (found.symm.trans ((consistent.find?_iff other i).2 ⟨value, held⟩)))
        simp [here, nowhere]
    · rw [Positions.find?_erase_of_ne same, consistent.find?_iff]
      by_cases here : place = i
      · subst here
        simp [held, bound, Ne.symm same]
      · simp [here]
  size_eq := by
    obtain ⟨before, old, after, parts, rfl⟩ := consistent.split found
    rw [consistent.size_eq]
    simp [entriesOf, parts]

/-- The parts agree after the empty slots are left out and the places recorded anew. -/
theorem compact (consistent : Consistent slots positions size) :
    Consistent (slots.filter Option.isSome) (.ofList (recorded (slots.filter Option.isSome)))
      (slots.filter Option.isSome).size where
  find?_iff := by
    intro key place
    rw [Positions.find?_ofList, mem_recorded]
    rw [keys_recorded, entriesOf_filter_isSome]
    exact consistent.keys_nodup
  size_eq := by
    rw [entriesOf, Array.toList_filter, List.length_filterMap_eq_countP, ← Array.length_toList,
      Array.toList_filter]
    simp [List.countP_eq_length_filter]

end Consistent

end OrderedIndex

/-- Entries in insertion order, with a table from each key to the place of its slot. -/
structure OrderedIndex (K V : Type) [DecidableEq K] [Fingerprint K] where
  slots : Array (Option (K × V))
  positions : Positions K
  /-- The number of entries. -/
  size : Nat
  consistent : OrderedIndex.Consistent slots positions size

namespace OrderedIndex

variable {K V : Type} [DecidableEq K] [Fingerprint K]

/-- The index without entries. -/
def empty : OrderedIndex K V :=
  { slots := #[], positions := .empty, size := 0, consistent := .empty }

instance : Inhabited (OrderedIndex K V) := ⟨empty⟩

/-- Shorter slot sequences are never compacted. -/
def compactionThreshold : Nat := 16

def isEmpty (ix : OrderedIndex K V) : Bool := ix.size == 0

/-- The number of slots that an entry was removed from. -/
def vacancies (ix : OrderedIndex K V) : Nat := ix.slots.size - ix.size

/-- The entries in insertion order. -/
def toList (ix : OrderedIndex K V) : List (K × V) := entriesOf ix.slots

def keys (ix : OrderedIndex K V) : List K := ix.toList.map Prod.fst

def values (ix : OrderedIndex K V) : List V := ix.toList.map Prod.snd

instance [DecidableEq V] : DecidableEq (OrderedIndex K V) := fun a b =>
  decidable_of_iff (a.slots = b.slots ∧ a.positions = b.positions ∧ a.size = b.size)
    (by cases a; cases b; simp)

instance [Repr K] [Repr V] : Repr (OrderedIndex K V) := ⟨fun ix => reprPrec ix.toList⟩

/-! ### Looking up -/

/-- The recorded place of a key. -/
def position? (ix : OrderedIndex K V) (key : K) : Option Nat := ix.positions.find? key

/-- The value in the slot recorded for a key. -/
def get? (ix : OrderedIndex K V) (key : K) : Option V := do
  let place ← ix.position? key
  let slot ← ix.slots[place]?
  let entry ← slot
  pure entry.2

def contains (ix : OrderedIndex K V) (key : K) : Bool := (ix.position? key).isSome

/-! ### Setting -/

/-- The index after setting the value of a key. A present key keeps its place, a new one goes to
the end. -/
def set (ix : OrderedIndex K V) (key : K) (value : V) : OrderedIndex K V :=
  -- The parts are taken out of the index first, so that the slots can be written in place.
  let { slots, positions, size, consistent } := ix
  match found : positions.find? key with
  | some place =>
    { slots := slots.setIfInBounds place (some (key, value))
      positions
      size
      consistent := consistent.overwrite found value }
  | none =>
    let place := slots.size
    { slots := slots.push (some (key, value))
      positions := positions.insert key place
      size := size + 1
      consistent := consistent.push found value }

/-- Sets the value of a key and gives the value it had. -/
def insert (ix : OrderedIndex K V) (key : K) (value : V) : Option V × OrderedIndex K V :=
  (ix.get? key, ix.set key value)

/-- Sets the value of a key only if the key is present, and gives the value it had. -/
def replace (ix : OrderedIndex K V) (key : K) (value : V) : Option V × OrderedIndex K V :=
  if ix.contains key then ix.insert key value else (none, ix)

/-- Adds entries one after another; a later value for a key replaces the earlier one. -/
def insertAll (ix : OrderedIndex K V) (entries : List (K × V)) : OrderedIndex K V :=
  entries.foldl (fun ix entry => ix.set entry.1 entry.2) ix

/-- The index built by adding entries one after another. -/
def ofList (entries : List (K × V)) : OrderedIndex K V := empty.insertAll entries

/-! ### Removing -/

/-- Drops the empty slots and records the positions anew. -/
def compact (ix : OrderedIndex K V) : OrderedIndex K V :=
  let slots := ix.slots.filter Option.isSome
  { slots
    positions := .ofList (recorded slots)
    size := slots.size
    consistent := ix.consistent.compact }

/-- Whether a sequence is long enough to be compacted and has more empty slots than entries. -/
def isSparse (ix : OrderedIndex K V) : Bool :=
  decide (compactionThreshold ≤ ix.slots.size) && decide (ix.size < ix.vacancies)

/-- Compacts a sparse sequence and leaves any other as it is. -/
def compactIfSparse (ix : OrderedIndex K V) : OrderedIndex K V :=
  if ix.isSparse then ix.compact else ix

/-- The index after emptying the slot of a present key and forgetting the key, not yet
compacted. -/
def vacate (ix : OrderedIndex K V) (key : K) (place : Nat)
    (found : ix.position? key = some place) : OrderedIndex K V :=
  match ix, found with
  | { slots, positions, size, consistent }, found =>
    { slots := slots.setIfInBounds place none
      positions := positions.erase key
      size := size - 1
      consistent := consistent.vacate found }

/-- The index after removing a key. -/
def remove (ix : OrderedIndex K V) (key : K) : OrderedIndex K V :=
  match found : ix.position? key with
  | some place => (ix.vacate key place found).compactIfSparse
  | none => ix

/-- Removes a key and gives the value it had. -/
def erase (ix : OrderedIndex K V) (key : K) : Option V × OrderedIndex K V :=
  (ix.get? key, ix.remove key)

end OrderedIndex

end ScriptCore
