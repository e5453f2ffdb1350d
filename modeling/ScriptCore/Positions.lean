import ScriptCore.Fingerprint

/-!
A table from keys to places.

The table is a binary tree that asks for the bits of a key's fingerprint one after another and has
short lists of entries for leaves. A leaf that grows long is split by the next bit. The statements
say that what a key finds is the place last recorded for it, whatever shape the tree has.
-/

namespace ScriptCore

/-- Keys with a place each. -/
inductive Positions (K : Type) where
  | bucket (entries : List (K × Nat))
  /-- The keys that have the next bit stand in the second part, the others in the first. -/
  | branch (without having : Positions K)
  deriving DecidableEq, Repr

namespace Positions

variable {K : Type}

/-- The table without keys. -/
def empty : Positions K := .bucket []

instance : Inhabited (Positions K) := ⟨empty⟩

/-- Longer leaves are split. -/
def bucketBound : Nat := 32

variable [DecidableEq K] [Fingerprint K]

/-- Whether a key has the bit at a place of its fingerprint. -/
def hasBit (key : K) (place : Nat) : Bool := Fingerprint.bit (Fingerprint.fingerprint key) place

/-- The part of a table that holds the entries, so many bits below the root. Many entries are split
by the next bit, as long as there is one. -/
def ofEntries (depth : Nat) (entries : List (K × Nat)) : Positions K :=
  if entries.length ≤ bucketBound || Fingerprint.width ≤ depth then .bucket entries
  else
    .branch (.bucket (entries.filter fun entry => !hasBit entry.1 depth))
      (.bucket (entries.filter fun entry => hasBit entry.1 depth))

/-- The place of a key in a part of a table, so many bits below the root. -/
def findFrom (key : K) (print : Nat) : Nat → Positions K → Option Nat
  | _, bucket entries => entries.lookup key
  | depth, branch without having =>
    if Fingerprint.bit print depth then findFrom key print (depth + 1) having
    else findFrom key print (depth + 1) without

/-- A part of a table with a place recorded, so many bits below the root. -/
def insertFrom (key : K) (place print : Nat) : Nat → Positions K → Positions K
  | depth, bucket entries =>
    ofEntries depth ((key, place) :: entries.filter fun entry => entry.1 ≠ key)
  | depth, branch without having =>
    if Fingerprint.bit print depth then
      .branch without (insertFrom key place print (depth + 1) having)
    else .branch (insertFrom key place print (depth + 1) without) having

/-- A part of a table with a key forgotten, so many bits below the root. -/
def eraseFrom (key : K) (print : Nat) : Nat → Positions K → Positions K
  | _, bucket entries => .bucket (entries.filter fun entry => entry.1 ≠ key)
  | depth, branch without having =>
    if Fingerprint.bit print depth then .branch without (eraseFrom key print (depth + 1) having)
    else .branch (eraseFrom key print (depth + 1) without) having

/-- The fingerprint of a key, as far as the table asks for it. -/
def printFor (positions : Positions K) (key : K) : Nat :=
  match positions with
  | bucket _ => 0
  | branch .. => Fingerprint.fingerprint key

/-- The place recorded for a key. -/
def find? (positions : Positions K) (key : K) : Option Nat :=
  findFrom key (positions.printFor key) 0 positions

/-- Records a place for a key, in the stead of any earlier one. -/
def insert (positions : Positions K) (key : K) (place : Nat) : Positions K :=
  insertFrom key place (positions.printFor key) 0 positions

/-- Forgets a key. -/
def erase (positions : Positions K) (key : K) : Positions K :=
  eraseFrom key (positions.printFor key) 0 positions

/-- The table of entries recorded one after another. -/
def ofList (entries : List (K × Nat)) : Positions K :=
  entries.foldl (fun positions entry => positions.insert entry.1 entry.2) empty

/-! ### What a key finds in a leaf -/

omit [Fingerprint K] in
/-- Entries that fail a test do not matter to a key that passes it. -/
theorem lookup_filter (keep : K → Bool) {key : K} (kept : keep key = true)
    (entries : List (K × Nat)) :
    (entries.filter fun entry => keep entry.1).lookup key = entries.lookup key := by
  induction entries with
  | nil => rfl
  | cons entry rest ih =>
    obtain ⟨other, place⟩ := entry
    by_cases same : key = other
    · subst same
      simp [kept]
    · by_cases keepOther : keep other = true <;>
        simp [keepOther, List.lookup_cons, beq_eq_false_iff_ne.2 same, ih]

omit [Fingerprint K] in
/-- A key finds nothing among the entries of other keys. -/
theorem lookup_filter_self (key : K) (entries : List (K × Nat)) :
    (entries.filter fun entry => entry.1 ≠ key).lookup key = none := by
  rw [List.lookup_eq_none_iff]
  intro entry member
  have differ : entry.1 ≠ key := by simpa using (List.mem_filter.1 member).2
  simpa using Ne.symm differ

/-- Splitting a leaf does not matter to what a key finds. -/
theorem findFrom_ofEntries (key : K) (depth : Nat) (entries : List (K × Nat)) :
    findFrom key (Fingerprint.fingerprint key) depth (ofEntries depth entries) =
      entries.lookup key := by
  unfold ofEntries
  split
  · rfl
  · have bit_eq : Fingerprint.bit (Fingerprint.fingerprint key) depth = hasBit key depth := rfl
    cases has : hasBit key depth <;>
      simp only [findFrom, bit_eq, has, Bool.false_eq_true, if_false, if_true]
    · exact lookup_filter (fun k => !hasBit k depth) (by simp [has]) entries
    · exact lookup_filter (fun k => hasBit k depth) has entries

/-! ### What a key finds in a part of a table -/

theorem findFrom_insertFrom (key : K) (place : Nat) (positions : Positions K) (depth : Nat) :
    findFrom key (Fingerprint.fingerprint key) depth
      (insertFrom key place (Fingerprint.fingerprint key) depth positions) = some place := by
  induction positions generalizing depth with
  | bucket entries => simp [insertFrom, findFrom_ofEntries]
  | branch without having ihWithout ihHaving =>
    by_cases has : Fingerprint.bit (Fingerprint.fingerprint key) depth <;>
      simp [insertFrom, findFrom, has, ihWithout, ihHaving]

theorem findFrom_insertFrom_of_ne {key other : K} (differ : other ≠ key) (place : Nat)
    (positions : Positions K) (depth : Nat) :
    findFrom other (Fingerprint.fingerprint other) depth
      (insertFrom key place (Fingerprint.fingerprint key) depth positions) =
      findFrom other (Fingerprint.fingerprint other) depth positions := by
  induction positions generalizing depth with
  | bucket entries =>
    rw [insertFrom, findFrom_ofEntries, List.lookup_cons, beq_eq_false_iff_ne.2 differ]
    exact lookup_filter (fun k => decide (k ≠ key)) (by simpa using differ) entries
  | branch without having ihWithout ihHaving =>
    by_cases has : Fingerprint.bit (Fingerprint.fingerprint key) depth <;>
      by_cases otherHas : Fingerprint.bit (Fingerprint.fingerprint other) depth <;>
        simp [insertFrom, findFrom, has, otherHas, ihWithout, ihHaving]

theorem findFrom_eraseFrom (key : K) (positions : Positions K) (depth : Nat) :
    findFrom key (Fingerprint.fingerprint key) depth
      (eraseFrom key (Fingerprint.fingerprint key) depth positions) = none := by
  induction positions generalizing depth with
  | bucket entries => exact lookup_filter_self key entries
  | branch without having ihWithout ihHaving =>
    by_cases has : Fingerprint.bit (Fingerprint.fingerprint key) depth <;>
      simp [eraseFrom, findFrom, has, ihWithout, ihHaving]

theorem findFrom_eraseFrom_of_ne {key other : K} (differ : other ≠ key)
    (positions : Positions K) (depth : Nat) :
    findFrom other (Fingerprint.fingerprint other) depth
      (eraseFrom key (Fingerprint.fingerprint key) depth positions) =
      findFrom other (Fingerprint.fingerprint other) depth positions := by
  induction positions generalizing depth with
  | bucket entries =>
    exact lookup_filter (fun k => decide (k ≠ key)) (by simpa using differ) entries
  | branch without having ihWithout ihHaving =>
    by_cases has : Fingerprint.bit (Fingerprint.fingerprint key) depth <;>
      by_cases otherHas : Fingerprint.bit (Fingerprint.fingerprint other) depth <;>
        simp [eraseFrom, findFrom, has, otherHas, ihWithout, ihHaving]

/-! ### What a key finds -/

/-- Asking for the whole fingerprint changes nothing where the table does not ask for it. -/
theorem find?_eq_findFrom (positions : Positions K) (key : K) :
    positions.find? key = findFrom key (Fingerprint.fingerprint key) 0 positions := by
  cases positions <;> rfl

theorem insert_eq_insertFrom (positions : Positions K) (key : K) (place : Nat) :
    positions.insert key place =
      insertFrom key place (Fingerprint.fingerprint key) 0 positions := by
  cases positions <;> rfl

theorem erase_eq_eraseFrom (positions : Positions K) (key : K) :
    positions.erase key = eraseFrom key (Fingerprint.fingerprint key) 0 positions := by
  cases positions <;> rfl

theorem find?_empty (key : K) : (empty : Positions K).find? key = none := rfl

theorem find?_insert_self (positions : Positions K) (key : K) (place : Nat) :
    (positions.insert key place).find? key = some place := by
  rw [find?_eq_findFrom, insert_eq_insertFrom, findFrom_insertFrom]

theorem find?_insert_of_ne {key other : K} (differ : other ≠ key) (positions : Positions K)
    (place : Nat) : (positions.insert key place).find? other = positions.find? other := by
  rw [find?_eq_findFrom, insert_eq_insertFrom, findFrom_insertFrom_of_ne differ,
    find?_eq_findFrom]

theorem find?_erase_self (positions : Positions K) (key : K) :
    (positions.erase key).find? key = none := by
  rw [find?_eq_findFrom, erase_eq_eraseFrom, findFrom_eraseFrom]

theorem find?_erase_of_ne {key other : K} (differ : other ≠ key) (positions : Positions K) :
    (positions.erase key).find? other = positions.find? other := by
  rw [find?_eq_findFrom, erase_eq_eraseFrom, findFrom_eraseFrom_of_ne differ, find?_eq_findFrom]

/-- Of entries with distinct keys, each is found; what they do not mention is as it was. -/
theorem find?_foldl_insert {entries : List (K × Nat)} (distinct : (entries.map Prod.fst).Nodup)
    (base : Positions K) (key : K) (place : Nat) :
    (entries.foldl (fun positions entry => positions.insert entry.1 entry.2) base).find? key =
        some place ↔
      (key, place) ∈ entries ∨ key ∉ entries.map Prod.fst ∧ base.find? key = some place := by
  induction entries generalizing base with
  | nil => simp
  | cons entry rest ih =>
    obtain ⟨first, firstPlace⟩ := entry
    obtain ⟨fresh, distinct⟩ := List.nodup_cons.1 distinct
    rw [List.foldl_cons, ih distinct]
    by_cases same : key = first
    · subst same
      have absent : (key, place) ∉ rest := fun member => fresh (List.mem_map.2 ⟨_, member, rfl⟩)
      simp only [find?_insert_self, absent, fresh, List.mem_cons]
      simp [eq_comm]
    · simp [find?_insert_of_ne same, same]

theorem find?_ofList {entries : List (K × Nat)} (distinct : (entries.map Prod.fst).Nodup)
    (key : K) (place : Nat) : (ofList entries).find? key = some place ↔ (key, place) ∈ entries := by
  simp [ofList, find?_foldl_insert distinct, find?_empty]

end Positions

end ScriptCore
