import Mathlib.Data.List.Nodup
import Mathlib.Data.List.Perm.Subperm
import ScriptCore.OrderedIndex

/-!
What the operations of an index do to the list of its entries.

The entries of an index are a list of pairs with distinct keys. Looking up, setting, removing and
compacting are stated as what they read off that list or do to it; no later argument opens the
slots or the table of positions again.
-/

namespace ScriptCore

/-! ### Lists of entries -/

namespace Entries

variable {K V : Type} [DecidableEq K]

/-- Sets the value of a key: a present key keeps its place, a new one goes to the end. -/
def put (entries : List (K × V)) (key : K) (value : V) : List (K × V) :=
  if key ∈ entries.map Prod.fst then
    entries.map fun entry => if entry.1 = key then (key, value) else entry
  else entries ++ [(key, value)]

/-- Sets the values of keys one after another. -/
def putAll (entries more : List (K × V)) : List (K × V) :=
  more.foldl (fun entries entry => put entries entry.1 entry.2) entries

/-- Leaves out the entry of a key. -/
def without (entries : List (K × V)) (key : K) : List (K × V) :=
  entries.filter fun entry => entry.1 ≠ key

omit [DecidableEq K] in
theorem ne_of_notMem {entries : List (K × V)} {key : K} (absent : key ∉ entries.map Prod.fst)
    {entry : K × V} (member : entry ∈ entries) : entry.1 ≠ key := by
  rintro rfl
  exact absent (List.mem_map_of_mem member)

theorem lookup_of_notMem {entries : List (K × V)} {key : K}
    (absent : key ∉ entries.map Prod.fst) : entries.lookup key = none := by
  rw [List.lookup_eq_none_iff]
  intro entry member
  simpa using (ne_of_notMem absent member).symm

section Split

variable {before after : List (K × V)} {key : K} {old : V}
  (notBefore : key ∉ before.map Prod.fst) (notAfter : key ∉ after.map Prod.fst)

include notBefore in
theorem lookup_split : (before ++ (key, old) :: after).lookup key = some old := by
  rw [List.lookup_append, lookup_of_notMem notBefore, Option.none_or, List.lookup_cons_self]

include notBefore notAfter in
/-- Setting the key of an entry replaces that entry and no other. -/
theorem put_split (value : V) :
    put (before ++ (key, old) :: after) key value = before ++ (key, value) :: after := by
  have unchanged : ∀ part : List (K × V), key ∉ part.map Prod.fst →
      part.map (fun entry => if entry.1 = key then (key, value) else entry) = part := by
    intro part absent
    rw [List.map_congr_left (g := id), List.map_id]
    intro entry member
    exact if_neg (ne_of_notMem absent member)
  simp [put, unchanged before notBefore, unchanged after notAfter]

include notBefore notAfter in
/-- Leaving out the key of an entry drops that entry and no other. -/
theorem without_split : without (before ++ (key, old) :: after) key = before ++ after := by
  have unchanged : ∀ part : List (K × V), key ∉ part.map Prod.fst →
      part.filter (fun entry => entry.1 ≠ key) = part := by
    intro part absent
    rw [List.filter_eq_self]
    intro entry member
    simpa using ne_of_notMem absent member
  rw [without, List.filter_append, unchanged before notBefore, List.filter_cons_of_neg (by simp),
    unchanged after notAfter]

end Split

theorem put_of_notMem {entries : List (K × V)} {key : K} (absent : key ∉ entries.map Prod.fst)
    (value : V) : put entries key value = entries ++ [(key, value)] := if_neg absent

theorem put_of_mem {entries : List (K × V)} {key : K} (present : key ∈ entries.map Prod.fst)
    (value : V) : put entries key value =
      entries.map fun entry => if entry.1 = key then (key, value) else entry := if_pos present

/-- Setting new and distinct keys adds the entries at the end. -/
theorem putAll_of_nodup {entries more : List (K × V)}
    (distinct : ((entries ++ more).map Prod.fst).Nodup) :
    putAll entries more = entries ++ more := by
  induction more generalizing entries with
  | nil => simp [putAll]
  | cons entry rest ih =>
    have absent : entry.1 ∉ entries.map Prod.fst := by
      rw [List.map_append, List.nodup_append] at distinct
      exact fun member => distinct.2.2 _ member _ List.mem_cons_self rfl
    have added : putAll entries (entry :: rest) = putAll (entries ++ [entry]) rest := by
      rw [putAll, List.foldl_cons, put_of_notMem absent, putAll]
    rw [added, ih (by simpa using distinct), List.append_assoc, List.singleton_append]

/-! ### Setting keys one after another -/

theorem mem_put {entries : List (K × V)} {key other : K} {value found : V} :
    (other, found) ∈ put entries key value ↔
      if other = key then found = value else (other, found) ∈ entries := by
  by_cases here : key ∈ entries.map Prod.fst
  · rw [put_of_mem here, List.mem_map]
    constructor
    · rintro ⟨entry, member, same⟩
      split at same
      · cases same
        rw [if_pos rfl]
      · next apart =>
        subst same
        rwa [if_neg apart]
    · intro member
      split at member
      · next same =>
        obtain ⟨entry, present, rfl⟩ := List.mem_map.1 here
        exact ⟨entry, present, by rw [if_pos rfl, same, member]⟩
      · next apart => exact ⟨_, member, if_neg apart⟩
  · rw [put_of_notMem here, List.mem_append, List.mem_singleton, Prod.mk.injEq]
    split
    · next same =>
      have absent : (other, found) ∉ entries := fun member => ne_of_notMem here member same
      subst same
      simp [absent]
    · next apart => simp [apart]

theorem keys_put (entries : List (K × V)) (key : K) (value : V) :
    (put entries key value).map Prod.fst =
      if key ∈ entries.map Prod.fst then entries.map Prod.fst else entries.map Prod.fst ++ [key] := by
  rw [put]
  split
  · rw [List.map_map]
    refine List.map_congr_left fun entry _ => ?_
    simp only [Function.comp]
    split
    · next same => exact same.symm
    · rfl
  · rw [List.map_append]
    rfl

theorem nodup_put {entries : List (K × V)} (distinct : (entries.map Prod.fst).Nodup) (key : K)
    (value : V) : ((put entries key value).map Prod.fst).Nodup := by
  rw [keys_put]
  split
  · exact distinct
  · next absent => exact List.concat_eq_append ▸ distinct.concat absent

theorem put_put_self (entries : List (K × V)) (key : K) (old value : V) :
    put (put entries key old) key value = put entries key value := by
  have present : key ∈ (put entries key old).map Prod.fst := by
    rw [keys_put]
    split <;> simp_all
  rw [put, if_pos present, put]
  split
  · next here =>
    rw [put, if_pos here, List.map_map]
    refine List.map_congr_left fun entry _ => ?_
    simp only [Function.comp]
    split <;> simp_all
  · next absent =>
    have others : entries.map (fun entry => if entry.1 = key then (key, value) else entry) = entries :=
      (List.map_congr_left fun entry member => if_neg (ne_of_notMem absent member)).trans
        (List.map_id entries)
    rw [put_of_notMem absent, List.map_append, others]
    simp

/-- Setting a present key and then another one is setting them the other way round. -/
theorem put_put_comm {entries : List (K × V)} {key other : K}
    (present : key ∈ entries.map Prod.fst) (apart : other ≠ key) (value value' : V) :
    put (put entries other value') key value = put (put entries key value) other value' := by
  have keys : (put entries key value).map Prod.fst = entries.map Prod.fst := by
    rw [keys_put, if_pos present]
  by_cases here : other ∈ entries.map Prod.fst
  · have present' : key ∈ (put entries other value').map Prod.fst := by
      rwa [keys_put, if_pos here]
    rw [put_of_mem present', put_of_mem here, put_of_mem (keys ▸ here), put_of_mem present,
      List.map_map, List.map_map]
    refine List.map_congr_left fun entry _ => ?_
    by_cases first : entry.1 = other
    · simp [first, apart]
    · by_cases second : entry.1 = key
      · simp [second, apart.symm]
      · simp [first, second]
  · have absent : other ∉ (put entries key value).map Prod.fst := by rwa [keys]
    have present' : key ∈ (entries ++ [(other, value')]).map Prod.fst := by
      rw [List.map_append]
      exact List.mem_append_left _ present
    rw [put_of_notMem here, put_of_notMem absent, put_of_mem present', put_of_mem present]
    simp [apart]

theorem putAll_append (entries more others : List (K × V)) :
    putAll entries (more ++ others) = putAll (putAll entries more) others := List.foldl_append

/-- A present key that is set last can as well be set first. -/
theorem put_putAll {entries more : List (K × V)} {key : K} (present : key ∈ entries.map Prod.fst)
    (absent : key ∉ more.map Prod.fst) (value : V) :
    put (putAll entries more) key value = putAll (put entries key value) more := by
  induction more generalizing entries with
  | nil => rfl
  | cons entry rest ih =>
    rw [List.map_cons, List.mem_cons, not_or] at absent
    have present' : key ∈ (put entries entry.1 entry.2).map Prod.fst := by
      rw [keys_put]
      split <;> simp_all
    rw [putAll, putAll, List.foldl_cons, List.foldl_cons, ← putAll, ← putAll, ih present' absent.2,
      put_put_comm present (Ne.symm absent.1)]

/-- Setting the entries of a list after one of its keys was set is setting its entries and then
that key. -/
theorem putAll_put {more : List (K × V)} (distinct : (more.map Prod.fst).Nodup)
    (entries : List (K × V)) (key : K) (value : V) :
    putAll entries (put more key value) = put (putAll entries more) key value := by
  by_cases here : key ∈ more.map Prod.fst
  · obtain ⟨⟨key, old⟩, member, rfl⟩ := List.mem_map.1 here
    obtain ⟨before, after, rfl⟩ := List.append_of_mem member
    rw [List.map_append, List.map_cons, List.nodup_append, List.nodup_cons] at distinct
    obtain ⟨-, ⟨notAfter, -⟩, apart⟩ := distinct
    have notBefore : key ∉ before.map Prod.fst := fun member =>
      apart key member key List.mem_cons_self rfl
    have present : key ∈ (put (putAll entries before) key old).map Prod.fst := by
      rw [keys_put]
      split <;> simp_all
    rw [put_split notBefore notAfter, putAll_append, putAll_append]
    calc putAll (putAll entries before) ((key, value) :: after)
        = putAll (put (put (putAll entries before) key old) key value) after := by
          rw [put_put_self]
          rfl
      _ = put (putAll (put (putAll entries before) key old) after) key value :=
          (put_putAll present notAfter value).symm
  · rw [put_of_notMem here, putAll_append]
    rfl

/-- It makes no difference whether entries are set one after another or gathered before. -/
theorem putAll_putAll (entries : List (K × V)) {gathered : List (K × V)}
    (distinct : (gathered.map Prod.fst).Nodup) (more : List (K × V)) :
    putAll entries (putAll gathered more) = putAll (putAll entries gathered) more := by
  induction more generalizing gathered with
  | nil => rfl
  | cons entry rest ih =>
    calc putAll entries (putAll (put gathered entry.1 entry.2) rest)
        = putAll (putAll entries (put gathered entry.1 entry.2)) rest :=
          ih (nodup_put distinct _ _)
      _ = putAll (put (putAll entries gathered) entry.1 entry.2) rest := by
          rw [putAll_put distinct]

theorem without_of_notMem {entries : List (K × V)} {key : K}
    (absent : key ∉ entries.map Prod.fst) : without entries key = entries := by
  rw [without, List.filter_eq_self]
  intro entry member
  simpa using ne_of_notMem absent member

/-- An entry with a distinct key is what looking up its key finds. -/
theorem mem_iff_lookup {entries : List (K × V)} (distinct : (entries.map Prod.fst).Nodup) (key : K)
    (value : V) : (key, value) ∈ entries ↔ entries.lookup key = some value := by
  constructor
  · intro member
    obtain ⟨before, after, rfl⟩ := List.append_of_mem member
    rw [List.map_append, List.nodup_append] at distinct
    exact lookup_split fun member => distinct.2.2 key member key List.mem_cons_self rfl
  · intro found
    obtain ⟨before, after, rfl, -⟩ := List.lookup_eq_some_iff.1 found
    exact List.mem_append_right _ List.mem_cons_self

/-- Entries with distinct keys differ in order only exactly if looking up finds the same in both. -/
theorem perm_iff {entries others : List (K × V)} (distinct : (entries.map Prod.fst).Nodup)
    (distinct' : (others.map Prod.fst).Nodup) :
    entries.Perm others ↔ ∀ key, entries.lookup key = others.lookup key := by
  rw [List.perm_ext_iff_of_nodup distinct.of_map distinct'.of_map, Prod.forall]
  refine forall_congr' fun key => ?_
  simp only [mem_iff_lookup distinct, mem_iff_lookup distinct']
  exact Option.ext_iff.symm

omit [DecidableEq K] in
theorem keys_map {W : Type} (f : V → W) (entries : List (K × V)) :
    (entries.map fun entry => (entry.1, f entry.2)).map Prod.fst = entries.map Prod.fst := by
  rw [List.map_map]
  rfl

theorem lookup_map {W : Type} (f : V → W) (entries : List (K × V)) (key : K) :
    (entries.map fun entry => (entry.1, f entry.2)).lookup key = (entries.lookup key).map f := by
  induction entries with
  | nil => rfl
  | cons entry rest ih =>
    rw [List.map_cons, List.lookup_cons, List.lookup_cons, ih]
    split <;> rfl

end Entries

namespace OrderedIndex

variable {K V : Type} [DecidableEq K] [Fingerprint K]

/-! ### Keys and places -/

theorem keys_nodup (ix : OrderedIndex K V) : (ix.toList.map Prod.fst).Nodup :=
  ix.consistent.keys_nodup

theorem size_eq_length (ix : OrderedIndex K V) : ix.size = ix.toList.length :=
  ix.consistent.size_eq

/-- A key has a recorded place exactly if it is the key of an entry. -/
theorem mem_keys_iff (ix : OrderedIndex K V) (key : K) :
    key ∈ ix.toList.map Prod.fst ↔ ∃ place, ix.position? key = some place := by
  rw [toList, ← keys_recorded, List.mem_map]
  constructor
  · rintro ⟨⟨_, place⟩, member, rfl⟩
    exact ⟨place, (ix.consistent.find?_iff _ place).2 (mem_recorded.1 member)⟩
  · rintro ⟨place, found⟩
    exact ⟨(key, place), mem_recorded.2 ((ix.consistent.find?_iff key place).1 found), rfl⟩

theorem position?_eq_none_iff (ix : OrderedIndex K V) (key : K) :
    ix.position? key = none ↔ key ∉ ix.toList.map Prod.fst := by
  rw [mem_keys_iff, Option.eq_none_iff_forall_ne_some, not_exists]

/-- The recorded place of a key splits the slots, and with them the entries. -/
theorem split (ix : OrderedIndex K V) {key : K} {place : Nat}
    (found : ix.position? key = some place) :
    ∃ before old after, ix.slots.toList = before ++ some (key, old) :: after ∧
      before.length = place ∧
      ix.toList = before.filterMap id ++ (key, old) :: after.filterMap id ∧
      key ∉ (before.filterMap id).map Prod.fst ∧ key ∉ (after.filterMap id).map Prod.fst := by
  obtain ⟨before, old, after, parts, length⟩ := ix.consistent.split found
  have entries : ix.toList = before.filterMap id ++ (key, old) :: after.filterMap id := by
    simp [toList, entriesOf, parts]
  have distinct := ix.keys_nodup
  rw [entries, List.map_append, List.nodup_append, List.map_cons, List.nodup_cons] at distinct
  obtain ⟨-, ⟨notAfter, -⟩, apart⟩ := distinct
  exact ⟨before, old, after, parts, length, entries,
    fun member => apart key member key List.mem_cons_self rfl, notAfter⟩

/-! ### Looking up -/

theorem get?_eq_lookup (ix : OrderedIndex K V) (key : K) : ix.get? key = ix.toList.lookup key := by
  cases found : ix.position? key with
  | none =>
    rw [Entries.lookup_of_notMem ((ix.position?_eq_none_iff key).1 found)]
    simp [get?, found]
  | some place =>
    obtain ⟨before, old, after, parts, rfl, entries, notBefore, -⟩ := ix.split found
    have slot : ix.slots[before.length]? = some (some (key, old)) := by
      rw [← Array.getElem?_toList, parts]
      simp
    rw [entries, Entries.lookup_split notBefore]
    simp [get?, found, slot]

theorem contains_iff (ix : OrderedIndex K V) (key : K) :
    ix.contains key = true ↔ key ∈ ix.toList.map Prod.fst := by
  rw [mem_keys_iff, contains, Option.isSome_iff_exists]

theorem isEmpty_iff (ix : OrderedIndex K V) : ix.isEmpty = true ↔ ix.toList = [] := by
  simp [isEmpty, size_eq_length]

theorem mem_toList_iff (ix : OrderedIndex K V) (key : K) (value : V) :
    (key, value) ∈ ix.toList ↔ ix.get? key = some value := by
  rw [get?_eq_lookup, Entries.mem_iff_lookup ix.keys_nodup]

theorem get?_eq_none_iff (ix : OrderedIndex K V) (key : K) :
    ix.get? key = none ↔ key ∉ ix.toList.map Prod.fst := by
  rw [get?_eq_lookup]
  refine ⟨fun missing present => ?_, Entries.lookup_of_notMem⟩
  obtain ⟨entry, member, rfl⟩ := List.mem_map.1 present
  simpa using List.lookup_eq_none_iff.1 missing entry member

theorem isSome_get?_iff (ix : OrderedIndex K V) (key : K) :
    (ix.get? key).isSome = true ↔ key ∈ ix.toList.map Prod.fst := by
  rw [Option.isSome_iff_ne_none, Ne, get?_eq_none_iff, not_not]

/-- If an index has all keys of another one of its size, then it has no other keys. -/
theorem keys_subset_of_size {ix jx : OrderedIndex K V} (size : ix.size = jx.size)
    (included : ix.toList.map Prod.fst ⊆ jx.toList.map Prod.fst) :
    jx.toList.map Prod.fst ⊆ ix.toList.map Prod.fst := by
  have lengths : (jx.toList.map Prod.fst).length ≤ (ix.toList.map Prod.fst).length := by
    simp [← size_eq_length, size]
  exact ((List.subperm_of_subset ix.keys_nodup included).perm_of_length_le lengths).symm.subset

/-- Indexes with the same keys have the same size. -/
theorem size_eq_of_keys {ix jx : OrderedIndex K V}
    (same : ∀ key, key ∈ ix.toList.map Prod.fst ↔ key ∈ jx.toList.map Prod.fst) :
    ix.size = jx.size := by
  have rearranged := (List.perm_ext_iff_of_nodup ix.keys_nodup jx.keys_nodup).2 same
  simpa [size_eq_length] using rearranged.length_eq

/-! ### Setting and removing -/

theorem toList_empty : (empty : OrderedIndex K V).toList = [] := rfl

theorem toList_set (ix : OrderedIndex K V) (key : K) (value : V) :
    (ix.set key value).toList = Entries.put ix.toList key value := by
  rw [set]
  split
  · rename_i place found
    obtain ⟨before, old, after, parts, rfl, entries, notBefore, notAfter⟩ := ix.split found
    rw [entries, Entries.put_split notBefore notAfter]
    simp [toList, entriesOf, parts]
  · rename_i found
    rw [Entries.put_of_notMem ((ix.position?_eq_none_iff key).1 found)]
    simp [toList, entriesOf]

theorem mem_keys_set (ix : OrderedIndex K V) (key other : K) (value : V) :
    other ∈ (ix.set key value).keys ↔ other = key ∨ other ∈ ix.keys := by
  rw [keys, keys, toList_set, Entries.keys_put]
  split
  · rename_i present
    exact ⟨.inr, fun either => either.elim (fun same => same ▸ present) id⟩
  · rw [List.mem_append, List.mem_singleton, or_comm]

theorem get?_set (ix : OrderedIndex K V) (key other : K) (value : V) :
    (ix.set key value).get? other = if other = key then some value else ix.get? other := by
  refine Option.ext fun found => ?_
  rw [← mem_toList_iff, toList_set, Entries.mem_put]
  split
  · exact ⟨fun same => congrArg _ same.symm, fun same => (Option.some.inj same).symm⟩
  · exact ix.mem_toList_iff other found

theorem toList_insertAll (ix : OrderedIndex K V) (entries : List (K × V)) :
    (ix.insertAll entries).toList = Entries.putAll ix.toList entries := by
  induction entries generalizing ix with
  | nil => rfl
  | cons entry rest ih =>
    rw [insertAll, List.foldl_cons, ← insertAll, ih, toList_set, Entries.putAll, Entries.putAll,
      List.foldl_cons]

/-- Setting keys one after another adds their keys. -/
theorem mem_keys_insertAll (ix : OrderedIndex K V) (entries : List (K × V)) (other : K) :
    other ∈ (ix.insertAll entries).keys ↔ other ∈ ix.keys ∨ other ∈ entries.map Prod.fst := by
  induction entries generalizing ix with
  | nil => simp [insertAll]
  | cons entry rest ih =>
    rw [insertAll, List.foldl_cons, ← insertAll, ih, mem_keys_set, List.map_cons, List.mem_cons]
    tauto

/-- When keys are set to values one after another, a key has the value at the place where it stands
last. -/
theorem get?_insertAll_zip (ix : OrderedIndex K V) {keys : List K} {values : List V}
    (enough : keys.length ≤ values.length) (key : K) (v : V) :
    (ix.insertAll (keys.zip values)).get? key = some v ↔
      (∃ i : Nat, keys[i]? = some key ∧ values[i]? = some v ∧
        ∀ j : Nat, i < j → keys[j]? ≠ some key) ∨ (key ∉ keys ∧ ix.get? key = some v) := by
  induction keys generalizing ix values with
  | nil => simp [insertAll]
  | cons first keys ih =>
    obtain _ | ⟨value, values⟩ := values
    · simp at enough
    rw [List.zip_cons_cons, insertAll, List.foldl_cons, ← insertAll,
      ih (ix.set first value) (Nat.le_of_succ_le_succ enough), get?_set]
    constructor
    · rintro (⟨i, named, given, last⟩ | ⟨free, bound⟩)
      · refine .inl ⟨i + 1, named, given, fun j behind => ?_⟩
        cases j with
        | zero => omega
        | succ j => exact last j (by omega)
      · split at bound
        · next here =>
          refine .inl ⟨0, by simp [here], by simpa using bound, fun j behind => ?_⟩
          cases j with
          | zero => omega
          | succ j => exact fun again => free (List.mem_of_getElem? again)
        · next apart => exact .inr ⟨by simp [apart, free], bound⟩
    · rintro (⟨_ | i, named, given, last⟩ | ⟨free, bound⟩)
      · have here : key = first := by simpa using named.symm
        refine .inr ⟨fun again => ?_, by simpa [here] using given⟩
        obtain ⟨j, again⟩ := List.mem_iff_getElem?.1 again
        exact last (j + 1) (by omega) again
      · exact .inl ⟨i, named, given, fun j behind => last (j + 1) (by omega)⟩
      · obtain ⟨apart, free⟩ := not_or.1 (mt List.mem_cons.2 free)
        exact .inr ⟨free, by rw [if_neg apart, bound]⟩

theorem toList_ofList (entries : List (K × V)) :
    (ofList entries).toList = Entries.putAll [] entries := toList_insertAll empty entries

theorem toList_compact (ix : OrderedIndex K V) : ix.compact.toList = ix.toList :=
  entriesOf_filter_isSome ix.slots

theorem toList_compactIfSparse (ix : OrderedIndex K V) :
    ix.compactIfSparse.toList = ix.toList := by
  unfold compactIfSparse
  split
  · exact ix.toList_compact
  · rfl

theorem toList_vacate (ix : OrderedIndex K V) {key : K} {place : Nat}
    (found : ix.position? key = some place) :
    (ix.vacate key place found).toList = Entries.without ix.toList key := by
  obtain ⟨before, old, after, parts, rfl, entries, notBefore, notAfter⟩ := ix.split found
  rw [entries, Entries.without_split notBefore notAfter]
  simp [vacate, toList, entriesOf, parts]

theorem toList_remove (ix : OrderedIndex K V) (key : K) :
    (ix.remove key).toList = Entries.without ix.toList key := by
  unfold remove
  split
  · rename_i place found
    rw [toList_compactIfSparse, toList_vacate]
  · rename_i found
    rw [Entries.without_of_notMem ((ix.position?_eq_none_iff key).1 found)]

theorem get?_remove (ix : OrderedIndex K V) (key other : K) :
    (ix.remove key).get? other = if other = key then none else ix.get? other := by
  refine Option.ext fun found => ?_
  rw [← mem_toList_iff, toList_remove, Entries.without, List.mem_filter, mem_toList_iff]
  split <;> simp [*]

end OrderedIndex

end ScriptCore
