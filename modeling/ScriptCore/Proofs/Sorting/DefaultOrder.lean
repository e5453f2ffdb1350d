import ScriptCore.Proofs.Content.Equality
import ScriptCore.Proofs.Sorting.Containers
import ScriptCore.Proofs.Sorting.Stability

/-!
The default order of values.

Numbers come before strings, strings before booleans, booleans before null, and null before all
references. The order compares values by four coordinates, one after another, each of which is
ordered: the class of the type, a mark for NaN, a text and a number. So it reverses with its
arguments, and not being greater is transitive. References have no order of their own but the one in
which they are numbered, and all that matters is that references of one type get numbers of their
own.
-/

namespace ScriptCore

namespace Value

/-- The number that a reference is given; other values have none. -/
def numbered (place : Identity → Nat) (v : Value) : Nat := (v.identity.map place).getD 0

/-- The default order, where references of one type stand in the order of the numbers that they are
given. -/
def compareWith (place : Identity → Nat) (a b : Value) : Ordering :=
  match a, b with
  | number x, number y => x.compareNaNLast y
  | text x, text y => compare x y
  | boolean x, boolean y => compare x.toNat y.toNat
  | _, _ =>
    ((compare a.typeRank b.typeRank).then (compare a.typeName b.typeName)).then
      (compare (a.numbered place) (b.numbered place))

/-- The default order numbers references by their age. -/
theorem defaultCompare_eq : defaultCompare = compareWith Identity.index := rfl

/-! ### Coordinates -/

/-- Marks what comes after every other number. -/
def sortMark : Value → Nat
  | number x => x.isNaN.toNat
  | _ => 0

/-- The text by which strings are ordered, and references are grouped. -/
def sortText : Value → String
  | null | boolean _ | number _ => ""
  | text s => s
  | reference => reference.typeName

/-- The number by which numbers, booleans and references are ordered. -/
def sortMeasure (place : Identity → Nat) : Value → Int
  | number x => if x.isNaN then 0 else x.orderKey
  | boolean b => b.toNat
  | other => other.numbered place

/-- Compares coordinate by coordinate. -/
def compareCoordinates (place : Identity → Nat) : Value → Value → Ordering :=
  compareLex (compareOn typeRank) (compareLex (compareOn sortMark)
    (compareLex (compareOn sortText) (compareOn (sortMeasure place))))

/-- Values of one rank are of one type, or references. -/
theorem of_typeRank_eq {a b : Value} (same : a.typeRank = b.typeRank) :
    (∃ x y, a = number x ∧ b = number y) ∨ (∃ s t, a = text s ∧ b = text t) ∨
      (∃ p q, a = boolean p ∧ b = boolean q) ∨ (a = null ∧ b = null) ∨
      (a.identity.isSome ∧ b.identity.isSome) := by
  cases a <;> cases b <;> simp_all [typeRank, identity]

/-- Values of rank four are references. -/
theorem coordinates_of_reference {v : Value} (reference : v.identity.isSome) :
    v.typeRank = 4 ∧ v.sortMark = 0 ∧ v.sortText = v.typeName ∧
      ∀ place, v.sortMeasure place = v.numbered place := by
  cases v with
  | null | boolean _ | number _ | text _ => cases reference
  | array _ | object _ | function _ | cls _ | inst _ | promise _ =>
    exact ⟨rfl, rfl, rfl, fun _ => rfl⟩

section Coordinates

variable (place : Identity → Nat)

theorem compareWith_of_typeRank_ne {a b : Value} (apart : a.typeRank ≠ b.typeRank) :
    compareWith place a b = compare a.typeRank b.typeRank := by
  have decided : compare a.typeRank b.typeRank ≠ .eq := fun same =>
    apart (Nat.compare_eq_eq.1 same)
  unfold compareWith
  split
  · exact absurd rfl apart
  · exact absurd rfl apart
  · exact absurd rfl apart
  · cases ordered : compare a.typeRank b.typeRank with
    | eq => exact absurd ordered decided
    | lt | gt => rfl

theorem compareWith_of_references {a b : Value} (first : a.identity.isSome)
    (second : b.identity.isSome) :
    compareWith place a b =
      (compare a.typeName b.typeName).then (compare (a.numbered place) (b.numbered place)) := by
  unfold compareWith
  split
  · cases first
  · cases first
  · cases first
  · rw [(coordinates_of_reference first).1, (coordinates_of_reference second).1]
    rfl

theorem compare_natCast (m n : Nat) : compare (m : Int) n = compare m n := by
  rw [Int.compare_eq_ite_lt, Nat.compare_eq_ite_lt]
  simp only [Int.ofNat_lt]

/-- Comparing coordinate by coordinate is the default order. -/
theorem compareCoordinates_eq : compareCoordinates place = compareWith place := by
  funext a b
  by_cases same : a.typeRank = b.typeRank
  · rcases of_typeRank_eq same with ⟨x, y, rfl, rfl⟩ | ⟨s, t, rfl, rfl⟩ | ⟨p, q, rfl, rfl⟩ |
      ⟨rfl, rfl⟩ | ⟨first, second⟩
    · simp only [compareWith, compareCoordinates, compareLex, compareOn, typeRank, sortMark,
        sortText, sortMeasure, Binary64.compareNaNLast]
      cases x.isNaN <;> cases y.isNaN <;> rfl
    · simp [compareWith, compareCoordinates, compareLex, compareOn, typeRank, sortMark, sortText,
        sortMeasure, numbered, identity]
    · cases p <;> cases q <;> rfl
    · rfl
    · obtain ⟨rank, mark, name, measure⟩ := coordinates_of_reference first
      obtain ⟨rank', mark', name', measure'⟩ := coordinates_of_reference second
      rw [compareWith_of_references place first second]
      simp [compareCoordinates, compareLex, compareOn, rank, rank', mark, mark', name, name',
        measure, measure', compare_natCast]
  · rw [compareWith_of_typeRank_ne place same]
    have decided : compare a.typeRank b.typeRank ≠ .eq := fun equal =>
      same (Nat.compare_eq_eq.1 equal)
    unfold compareCoordinates compareLex compareOn
    cases ordered : compare a.typeRank b.typeRank with
    | eq => exact absurd ordered decided
    | lt | gt => rfl

instance : Std.TransCmp (compareCoordinates place) := by
  unfold compareCoordinates
  infer_instance

instance : Std.TransCmp (compareWith place) := by
  rw [← compareCoordinates_eq]
  infer_instance

end Coordinates

/-! ### What is taken for equal -/

/-- What the default order takes for equal. -/
inductive Tied : Value → Value → Prop
  | nan {x y : Binary64} (first : x.isNaN = true) (second : y.isNaN = true) :
    Tied (number x) (number y)
  | number {x y : Binary64} (equal : x.numEq y = true) : Tied (number x) (number y)
  | text (s : String) : Tied (text s) (text s)
  | boolean (b : Bool) : Tied (boolean b) (boolean b)
  | null : Tied null null
  | reference {a b : Value} (same : a.sameReference b = true) : Tied a b

theorem eq_of_sameReference {a b : Value} (same : a.sameReference b = true) : a = b := by
  cases a <;> cases b <;> simp_all [sameReference, identity]

/-- What is taken for equal has the same key. -/
theorem Tied.keyOf_eq {a b : Value} (tied : Tied a b) (h : Heap) : h.keyOf a = h.keyOf b := by
  cases tied with
  | nan first second =>
    simp [Heap.keyOf, Heap.nesting, Heap.keyWithin, Binary64.normalize, first, second]
  | @number x y equal =>
    have same := (Binary64.normalize_eq_iff ((Binary64.numEq_iff x y).1 equal).1 y).2 equal
    simp [Heap.keyOf, Heap.nesting, Heap.keyWithin, same]
  | text | boolean | null => rfl
  | reference same => rw [eq_of_sameReference same]

section Ties

variable {place : Identity → Nat}

/-- Nothing is less or greater by coordinates that are all the same. -/
theorem compareWith_eq_iff (place : Identity → Nat) (a b : Value) :
    compareWith place a b = .eq ↔ a.typeRank = b.typeRank ∧ a.sortMark = b.sortMark ∧
      a.sortText = b.sortText ∧ a.sortMeasure place = b.sortMeasure place := by
  rw [← compareCoordinates_eq]
  simp only [compareCoordinates, compareLex, compareOn, Ordering.then_eq_eq,
    Std.LawfulEqCmp.compare_eq_iff_eq]

theorem kind_eq_of_typeName {a b : Value} {i j : Identity} (first : a.identity = some i)
    (second : b.identity = some j) (name : a.typeName = b.typeName) : i.kind = j.kind := by
  cases a <;> cases b <;> simp_all [typeName, identity] <;> subst first second <;> rfl

/-- References of one type that have the same number are the same. -/
theorem sameReference_of_numbered_eq
    (apart : ∀ i j : Identity, i.kind = j.kind → place i = place j → i = j) {a b : Value}
    (first : a.identity.isSome) (second : b.identity.isSome) (name : a.typeName = b.typeName)
    (number : a.numbered place = b.numbered place) : a.sameReference b = true := by
  obtain ⟨i, found⟩ := Option.isSome_iff_exists.1 first
  obtain ⟨j, found'⟩ := Option.isSome_iff_exists.1 second
  have places : place i = place j := by simpa [numbered, found, found'] using number
  have same := apart i j (kind_eq_of_typeName found found' name) places
  simp [sameReference, found, found', same]

theorem Tied.compareWith_eq {a b : Value} (tied : Tied a b) : compareWith place a b = .eq := by
  cases tied with
  | @nan x y first second => simp [compareWith, Binary64.compareNaNLast, first, second]
  | @number x y equal =>
    obtain ⟨first, second, same⟩ := (Binary64.numEq_iff x y).1 equal
    simp [compareWith, Binary64.compareNaNLast, first, second, same]
  | text | boolean | null => exact Std.ReflCmp.compare_self
  | reference same =>
    cases eq_of_sameReference same
    exact Std.ReflCmp.compare_self

theorem tied_of_compareWith_eq
    (apart : ∀ i j : Identity, i.kind = j.kind → place i = place j → i = j) {a b : Value}
    (equal : compareWith place a b = .eq) : Tied a b := by
  obtain ⟨rank, mark, text, measure⟩ := (compareWith_eq_iff place a b).1 equal
  rcases of_typeRank_eq rank with ⟨x, y, rfl, rfl⟩ | ⟨s, t, rfl, rfl⟩ | ⟨p, q, rfl, rfl⟩ |
    ⟨rfl, rfl⟩ | ⟨first, second⟩
  · simp only [sortMark, sortMeasure] at mark measure
    cases nan : x.isNaN <;> cases nan' : y.isNaN <;> simp [nan, nan'] at mark measure
    · exact .number ((Binary64.numEq_iff x y).2 ⟨nan, nan', measure⟩)
    · exact .nan nan nan'
  · cases text
    exact .text s
  · cases p <;> cases q <;> first | exact .boolean _ | cases measure
  · exact .null
  · obtain ⟨-, -, name, number⟩ := coordinates_of_reference first
    obtain ⟨-, -, name', number'⟩ := coordinates_of_reference second
    rw [name, name'] at text
    rw [number, number', Int.natCast_inj] at measure
    exact .reference (sameReference_of_numbered_eq apart first second text measure)

end Ties

/-! ### The order of the classes -/

/-- Each class of values and the one after it: numbers, strings, booleans, null, references. -/
inductive NextClass : Value → Value → Prop
  | numberText (x : Binary64) (s : String) : NextClass (number x) (text s)
  | textBoolean (s : String) (b : Bool) : NextClass (text s) (boolean b)
  | booleanNull (b : Bool) : NextClass (boolean b) null
  | nullArray (r : Ref .array) : NextClass null (array r)
  | nullObject (r : Ref .object) : NextClass null (object r)
  | nullFunction (r : Ref .function) : NextClass null (function r)
  | nullClass (r : Ref .cls) : NextClass null (cls r)
  | nullInstance (r : Ref .inst) : NextClass null (inst r)
  | nullPromise (r : Ref .promise) : NextClass null (promise r)

/-- The first value is of a class before that of the second one. -/
abbrev ClassBefore : Value → Value → Prop := Relation.TransGen NextClass

theorem NextClass.typeRank_lt {a b : Value} (next : NextClass a b) : a.typeRank < b.typeRank := by
  cases next <;> simp [typeRank]

theorem ClassBefore.typeRank_lt {a b : Value} (before : ClassBefore a b) :
    a.typeRank < b.typeRank := by
  induction before with
  | single next => exact next.typeRank_lt
  | tail _ next ih => exact ih.trans next.typeRank_lt

/-! ### The default order as a preorder -/

/-- A preorder of all values: it reverses with its arguments, and not being greater is transitive.
It goes by the class of the values, NaN comes after every other number, and what is tied is just what
it takes for equal. -/
structure IsPreorder (order : Value → Value → Ordering) : Prop where
  swap : ∀ a b, order b a = (order a b).swap
  trans : ∀ a b c, order a b ≠ .gt → order b c ≠ .gt → order a c ≠ .gt
  classes : ∀ a b, ClassBefore a b → order a b = .lt
  nanLast : ∀ x y : Binary64, x.isNaN = false → y.isNaN = true → order (number x) (number y) = .lt
  ties : ∀ a b, order a b = .eq ↔ Tied a b

theorem isPreorder_compareWith {place : Identity → Nat}
    (apart : ∀ i j : Identity, i.kind = j.kind → place i = place j → i = j) :
    IsPreorder (compareWith place) where
  swap a b := Std.OrientedCmp.eq_swap
  trans a b c first second := by
    apply Ordering.isLE_iff_ne_gt.1
    exact Std.TransCmp.isLE_trans (Ordering.isLE_iff_ne_gt.2 first)
      (Ordering.isLE_iff_ne_gt.2 second)
  classes a b before := by
    have below := before.typeRank_lt
    rw [compareWith_of_typeRank_ne place (Nat.ne_of_lt below)]
    exact Nat.compare_eq_lt.2 below
  nanLast x y first second := by
    simp only [compareWith, Binary64.compareNaNLast, first, second]
  ties a b := ⟨tied_of_compareWith_eq apart, Tied.compareWith_eq⟩

end Value

/-! ### Sorting by the default order -/

/-- A rearrangement in which nothing stands before what it is greater than, and elements that are
equal keep their order. -/
structure SortedStably {α : Type} (order : α → α → Ordering) (xs ys : List α) : Prop where
  perm : ys.Perm xs
  ascending : ys.Pairwise fun a b => order a b ≠ .gt
  stable : Sort.StableArrangement order xs ys

/-- What all answers ensure is reached by an order that answers everything. -/
theorem Inquiry.Ensures.reached {α β : Type} {p : Inquiry α β} {good : β → Prop}
    {expected : α → α → Ordering → Prop} (ensures : p.Ensures expected good)
    (order : α → α → Ordering) (answers : ∀ a b, expected a b (order a b)) :
    ∃ result, p.run (fun a b => some (order a b)) = some result ∧ good result := by
  induction p with
  | ended leaf => exact ⟨leaf, rfl, ensures⟩
  | asks a b branches ih => exact ih (order a b) (ensures _ (answers a b))

/-- A sort by an order never fails, and sorts stably. -/
theorem Sort.sortedStably_stableSort {α : Type} (order : α → α → Ordering) [Std.TransCmp order]
    (xs : List α) :
    ∃ ys, stableSort (fun a b => some (order a b)) xs = some ys ∧ SortedStably order xs ys := by
  have sorted : (stableSort Inquiry.ask xs.zipIdx).Ensures (Answers order) fun result =>
      result.Pairwise (Precedes order) := stableSort_sorted (marked_zipIdx xs)
  obtain ⟨marked, gives, sorted, perm⟩ := (sorted.and (stableSort_perm xs.zipIdx).ensures).reached
    (fun a b => order a.1 b.1) fun a b => rfl
  have sorts := map_stableSort Prod.fst (fun a b => some (order a b)) xs.zipIdx
  rw [List.zipIdx_map_fst, ← run_stableSort, gives] at sorts
  refine ⟨marked.map Prod.fst, sorts.symm, ?_, ?_, stableArrangement_of_sorted perm sorted⟩
  · have same := perm.map Prod.fst
    rwa [List.zipIdx_map_fst] at same
  · exact List.pairwise_map.2 (sorted.imp Precedes.not_greater)

theorem Consulted.eq_of_none {re : Reentry} {m n : Machine} (consulted : Consulted re none m n) :
    n = m := by
  induction consulted with
  | refl => rfl
  | tail _ step _ =>
    obtain ⟨f, holds, a, b, ⟨⟩, -⟩ := step

/-- Elements ordered by values in the default order. -/
instance {α : Type} (value : α → Value) :
    Std.TransCmp fun a b => (value a).defaultCompare (value b) where
  eq_swap := by
    intro a b
    rw [Value.defaultCompare_eq]
    exact Std.OrientedCmp.eq_swap
  isLE_trans := by
    intro a b c first second
    rw [Value.defaultCompare_eq] at first second ⊢
    exact Std.TransCmp.isLE_trans first second

theorem eq_ok_of_toOption {ε α : Type} {result : Except ε α} {a : α}
    (gives : result.toOption = some a) : result = .ok a := by
  cases result with
  | error e => cases gives
  | ok b =>
    cases gives
    rfl

/-- Without a comparator a sort succeeds and leaves the machine as it is. -/
theorem Native.on_stableSort_default {α : Type} (re : Reentry) (m : Machine) (value : α → Value)
    (xs : List α) :
    ∃ ys, (Sort.stableSort (fun a b => compareBy re none (value a) (value b)) xs).on m =
        (.ok ys, m) ∧
      SortedStably (fun a b => (value a).defaultCompare (value b)) xs ys := by
  obtain ⟨ys, gives, sorted⟩ := Sort.sortedStably_stableSort
    (fun a b => (value a).defaultCompare (value b)) xs
  rw [← Sort.run_stableSort] at gives ⊢
  obtain ⟨consulted, same⟩ := run_judged (Sort.stableSort Inquiry.ask xs) value re.holds
    (judges_none re m)
  have kept := consulted.eq_of_none
  rw [gives] at same
  exact ⟨ys, Prod.ext (eq_ok_of_toOption same) kept, sorted⟩

/-- `keysSorted` refuses a container that has no keys. -/
theorem Native.on_keysSorted_of_refused {re : Reentry} {comparator : Option (Ref .function)}
    {m : Machine} {args : List Value} (given : ComparatorGiven args comparator)
    {container : Value} {cause : Cause}
    (refused : sortableKeys m.heap container = .error cause) :
    (keysSorted re (container :: args)).on m = (.error (.fault { cause }), m) := by
  have counted := given.count "keysSorted" container
  have found := given.function? "keysSorted" container
  simp only [keysSorted, counted, found, Run.on_bind, Action.on_check_ok, Action.on_viewHeap,
    List.getD_cons_zero, refused, Action.on_check_error]

/-! ### The order and the sorts by it -/

/-- The default order is a total preorder of all values, however references are numbered, as long as
those of one type get different numbers; ages are such numbers. What it takes for equal has the same
key. Without a comparator, `sort` and `keysSorted` make a new array of the items, or the keys, in a
stable order, and change nothing else; `keysSorted` refuses a container that has no keys. -/
theorem defaultCompare_isPreorder :
    (∀ place : Identity → Nat, (∀ i j : Identity, i.kind = j.kind → place i = place j → i = j) →
      Value.IsPreorder (Value.compareWith place) ∧
      ∀ (h : Heap) (a b : Value), Value.compareWith place a b = .eq → h.keyOf a = h.keyOf b) ∧
    Value.defaultCompare = Value.compareWith Identity.index ∧
    (∀ i j : Identity, i.kind = j.kind → i.index = j.index → i = j) ∧
    ∀ (re : Reentry) (m : Machine) (args : List Value), ComparatorGiven args none →
      (∀ r, ∃ sorted, (ArrayFunction.sort.call re (.array r :: args)).MakesArray sorted m ∧
        SortedStably Value.defaultCompare (m.heap.items r) sorted) ∧
      (∀ container entries, Native.sortableKeys m.heap container = .ok entries → ∃ sorted,
        (Native.keysSorted re (container :: args)).MakesArray (sorted.map Prod.fst) m ∧
        SortedStably (fun a b => Value.defaultCompare a.2 b.2) entries sorted) ∧
      ∀ container cause, Native.sortableKeys m.heap container = .error cause →
        (Native.keysSorted re (container :: args)).on m = (.error (.fault { cause }), m) := by
  refine ⟨fun place apart => ⟨Value.isPreorder_compareWith apart, ?_⟩, rfl, ?_, ?_⟩
  · intro h a b equal
    exact (Value.tied_of_compareWith_eq apart equal).keyOf_eq h
  · rintro ⟨kind, index⟩ ⟨kind', index'⟩ sameKind sameIndex
    cases sameKind
    cases sameIndex
    rfl
  · intro re m args given
    refine ⟨fun r => ?_, fun container entries listed => ?_, fun container cause refused => ?_⟩
    · obtain ⟨sorted, done, stably⟩ := Native.on_stableSort_default
        (re.holding (m.heap.items r)) m id (m.heap.items r)
      refine ⟨sorted, Action.makesArray_of_newArray ?_, stably⟩
      exact (ArrayFunction.on_sort given r).trans (Run.on_bind_of_ok done _)
    · obtain ⟨sorted, done, stably⟩ := Native.on_stableSort_default
        ((re.holding (entries.map Prod.fst)).holding (entries.map Prod.snd)) m Prod.snd entries
      refine ⟨sorted, Action.makesArray_of_newArray ?_, stably⟩
      exact (Native.on_keysSorted given listed).trans (Run.on_bind_of_ok done _)
    · exact Native.on_keysSorted_of_refused given refused

/-- A machine with an array of values of several types, NaN among them. -/
def assorted : Machine := .fresh
  { arrays := ⟨#[#[.array ⟨0⟩, .null, .number .nan, .boolean true, .text "x", .ofNat 5]]⟩ }

/-- Ages number references apart, and the values of that array are sorted, whatever calls back. -/
theorem defaultCompare_isPreorder_assorted :
    Value.IsPreorder Value.defaultCompare ∧ ComparatorGiven [.null] none ∧
      ∃ sorted, (ArrayFunction.sort.call .idle [.array ⟨0⟩, .null]).MakesArray sorted assorted ∧
        SortedStably Value.defaultCompare (assorted.heap.items ⟨0⟩) sorted := by
  obtain ⟨preorders, same, apart, sorts⟩ := defaultCompare_isPreorder
  have preorder := (preorders Identity.index apart).1
  rw [← same] at preorder
  obtain ⟨arrays, -⟩ := sorts .idle assorted [.null] .null
  exact ⟨preorder, .null, arrays ⟨0⟩⟩

end ScriptCore
