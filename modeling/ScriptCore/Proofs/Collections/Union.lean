import Mathlib.Data.List.Perm.Subperm
import ScriptCore.Proofs.Collections.Sets

/-!
What the union of two Sets holds, and when it is the union of what they are found to hold.

A Set finds a member by the key that it had when it was added. Intersection and difference go by
these stored keys; union adds the members anew, under the keys that they have now. It keeps the
first member of each present key, so a Set whose members were written to after they were added can
lose members and answers in a union.
-/

namespace ScriptCore

namespace SetStore

variable (keyOf : Value → Key)

/-! ### First members -/

/-- The values that are first with their key, among keys not seen before. -/
def firsts (seen : List Key) : List Value → List Value
  | [] => []
  | v :: rest =>
    if keyOf v ∈ seen then firsts seen rest else v :: firsts (seen ++ [keyOf v]) rest

/-- Adding members adds those that are first with their key, under the keys that they have now. -/
theorem rows_insertAll_eq_firsts (members : List Value) (store : SetStore) :
    (store.insertAll keyOf members).rows =
      store.rows ++ (firsts keyOf (store.rows.map Prod.fst) members).map fun v => (keyOf v, v) := by
  induction members generalizing store with
  | nil => simp [insertAll, firsts]
  | cons member rest ih =>
    have added := ih (store.insert (keyOf member) member)
    rw [rows_insert] at added
    rw [insertAll, List.foldl_cons, ← insertAll, added, firsts]
    split
    · rfl
    · simp

/-- The rows of a union: first members under their present keys. -/
theorem rows_union (a b : SetStore) :
    (a.union b keyOf).rows =
      (firsts keyOf [] (a.values ++ b.values)).map fun v => (keyOf v, v) :=
  rows_insertAll_eq_firsts keyOf (a.values ++ b.values) .empty

theorem firsts_append (seen : List Key) (members more : List Value) :
    firsts keyOf seen (members ++ more) = firsts keyOf seen members ++
      firsts keyOf (seen ++ (firsts keyOf seen members).map keyOf) more := by
  induction members generalizing seen with
  | nil => simp [firsts]
  | cons member rest ih =>
    rw [List.cons_append, firsts, firsts]
    split
    · exact ih seen
    · simp [ih]

/-- The keys seen, and those of the first members, are the keys seen and those of all members. -/
theorem mem_keys_firsts (k : Key) (seen : List Key) (members : List Value) :
    k ∈ seen ++ (firsts keyOf seen members).map keyOf ↔ k ∈ seen ++ members.map keyOf := by
  induction members generalizing seen with
  | nil => rfl
  | cons member rest ih =>
    rw [firsts]
    split
    · rename_i known
      rw [ih, List.map_cons, List.mem_append, List.mem_append, List.mem_cons]
      constructor
      · exact Or.imp_right .inr
      · rintro (old | rfl | new)
        · exact .inl old
        · exact .inl known
        · exact .inr new
    · simpa using ih (seen ++ [keyOf member])

/-- First members have keys that are distinct and were not seen. -/
theorem nodup_firsts (seen : List Key) (members : List Value) :
    ((firsts keyOf seen members).map keyOf).Nodup ∧
      ∀ k ∈ (firsts keyOf seen members).map keyOf, k ∉ seen := by
  induction members generalizing seen with
  | nil => simp [firsts]
  | cons member rest ih =>
    rw [firsts]
    split
    · exact ih seen
    · rename_i new
      obtain ⟨distinct, unseen⟩ := ih (seen ++ [keyOf member])
      simp only [List.mem_append, List.mem_singleton, not_or] at unseen
      refine ⟨List.nodup_cons.2 ⟨fun again => (unseen _ again).2 rfl, distinct⟩, ?_⟩
      rintro k (_ | ⟨_, later⟩)
      · exact new
      · exact (unseen k later).1

/-- Members with distinct keys not seen before are all first. -/
theorem firsts_eq_self {seen : List Key} {members : List Value}
    (distinct : (seen ++ members.map keyOf).Nodup) : firsts keyOf seen members = members := by
  induction members generalizing seen with
  | nil => rfl
  | cons member rest ih =>
    have new : keyOf member ∉ seen := fun known =>
      (List.nodup_append.1 distinct).2.2 _ known _ List.mem_cons_self rfl
    rw [firsts, if_neg new, ih]
    simpa using distinct

/-- Of members that have the keys of their rows, the first ones are those of the rows with keys not
seen before. -/
theorem firsts_of_kept {rows : List SetRow} (distinct : (rows.map Prod.fst).Nodup)
    (kept : ∀ row ∈ rows, keyOf row.2 = row.1) (seen : List Key) :
    firsts keyOf seen (rows.map Prod.snd) =
      (rows.filter fun row => row.1 ∉ seen).map Prod.snd := by
  induction rows generalizing seen with
  | nil => rfl
  | cons row rest ih =>
    rw [List.map_cons, List.nodup_cons] at distinct
    have ih := ih distinct.2 fun row later => kept row (List.mem_cons_of_mem _ later)
    have own : keyOf row.2 = row.1 := kept row List.mem_cons_self
    rw [List.map_cons, firsts, own, ih, ih]
    by_cases known : row.1 ∈ seen
    · simp [known]
    · have others : rest.filter (fun row' => row'.1 ∉ seen ++ [row.1]) =
          rest.filter fun row' => row'.1 ∉ seen := by
        refine List.filter_congr fun row' later => ?_
        simp [Entries.ne_of_notMem distinct.1 later]
      rw [if_neg known, others, List.filter_cons_of_pos (by simpa using known), List.map_cons]

/-! ### Stored keys -/

theorem keys_nodup (store : SetStore) : (store.rows.map Prod.fst).Nodup := store.members.keys_nodup

theorem rows_filterKeys (store : SetStore) (keep : Key → Bool) :
    (store.filterKeys keep).rows = store.rows.filter fun row => keep row.1 := by
  have distinct : ((store.rows.filter fun row => keep row.1).map Prod.fst).Nodup :=
    store.keys_nodup.sublist (List.filter_sublist.map _)
  rw [← List.nil_append (store.rows.filter _)] at distinct
  exact (OrderedIndex.toList_ofList _).trans (Entries.putAll_of_nodup distinct)

theorem rows_intersection (a b : SetStore) :
    (a.intersection b).rows = a.rows.filter fun row => b.contains row.1 :=
  a.rows_filterKeys b.contains

theorem rows_difference (a b : SetStore) :
    (a.difference b).rows = a.rows.filter fun row => !b.contains row.1 :=
  a.rows_filterKeys fun k => !b.contains k

theorem contains_filterKeys (store : SetStore) (keep : Key → Bool) (k : Key) :
    (store.filterKeys keep).contains k = (store.contains k && keep k) := by
  rw [Bool.eq_iff_iff, Bool.and_eq_true, contains_iff, rows_filterKeys, contains_iff,
    List.mem_map, List.mem_map]
  constructor
  · rintro ⟨row, member, rfl⟩
    obtain ⟨member, found⟩ := List.mem_filter.1 member
    exact ⟨⟨row, member, rfl⟩, found⟩
  · rintro ⟨⟨row, member, rfl⟩, found⟩
    exact ⟨row, List.mem_filter.2 ⟨member, found⟩, rfl⟩

theorem contains_intersection (a b : SetStore) (k : Key) :
    (a.intersection b).contains k = (a.contains k && b.contains k) :=
  a.contains_filterKeys b.contains k

theorem contains_difference (a b : SetStore) (k : Key) :
    (a.difference b).contains k = (a.contains k && !b.contains k) :=
  a.contains_filterKeys (fun k => !b.contains k) k

theorem size_split (a b : SetStore) :
    a.size = (a.intersection b).size + (a.difference b).size := by
  rw [size_eq, size_eq, size_eq, rows_intersection, rows_difference]
  exact List.length_eq_length_filter_add _

/-- Two Sets have equally many members in common in either order. -/
theorem size_intersection_comm (a b : SetStore) :
    (a.intersection b).size = (b.intersection a).size := by
  have common : ∀ k, k ∈ (a.intersection b).rows.map Prod.fst ↔
      k ∈ (b.intersection a).rows.map Prod.fst := by
    intro k
    simp only [← contains_iff, contains_intersection, Bool.and_comm]
  have rearranged := (List.perm_ext_iff_of_nodup (keys_nodup _) (keys_nodup _)).2 common
  simpa [size_eq] using rearranged.length_eq

/-! ### The union law -/

/-- What is asked of a union: it is found to have what either Set is found to have, whatever the
key of a probe; sizes follow; and it lists the members of the first and then those of the second
whose key the first does not have. -/
structure UnionLaw (a b u : SetStore) : Prop where
  has : ∀ k, u.contains k = (a.contains k || b.contains k)
  sizeGe : max a.size b.size ≤ u.size
  sizeAdd : u.size + (a.intersection b).size = a.size + b.size
  listing : u.values = a.values ++ (b.difference a).values

/-- Writes to members that a union does not notice: taken together, the members have the keys that
they are stored under; no two members of the first Set have come to the same key; and among the
members of the second, those first with a key that no member of the first has are still the ones
that are stored under such a key. -/
structure KeysHold (a b : SetStore) : Prop where
  same : ∀ k, k ∈ (a.values ++ b.values).map keyOf ↔ a.contains k ∨ b.contains k
  apart : (a.values.map keyOf).Nodup
  fresh : firsts keyOf (a.values.map keyOf) b.values = (b.difference a).values

/-- A union has the keys that the members of both Sets have now. -/
theorem contains_union_iff (a b : SetStore) (k : Key) :
    (a.union b keyOf).contains k = true ↔ k ∈ (a.values ++ b.values).map keyOf := by
  rw [contains_iff, rows_union, List.map_map]
  simpa using mem_keys_firsts keyOf k [] (a.values ++ b.values)

/-- A union lists what it should if the keys of the first Set are apart and those of the second are
new where they should be. -/
theorem values_union_iff (a b : SetStore) :
    (a.union b keyOf).values = a.values ++ (b.difference a).values ↔
      (a.values.map keyOf).Nodup ∧
        firsts keyOf (a.values.map keyOf) b.values = (b.difference a).values := by
  have listed : (a.union b keyOf).values = firsts keyOf [] (a.values ++ b.values) := by
    rw [values_eq, rows_union, List.map_map]
    exact List.map_id _
  have split : (a.values.map keyOf).Nodup → (a.union b keyOf).values =
      a.values ++ firsts keyOf (a.values.map keyOf) b.values := by
    intro apart
    rw [listed, firsts_append, firsts_eq_self keyOf (by simpa using apart), List.nil_append]
  constructor
  · intro same
    have apart : (a.values.map keyOf).Nodup := by
      have distinct := (nodup_firsts keyOf [] (a.values ++ b.values)).1
      rw [← listed, same, List.map_append, List.nodup_append] at distinct
      exact distinct.1
    exact ⟨apart, List.append_cancel_left ((split apart).symm.trans same)⟩
  · rintro ⟨apart, fresh⟩
    rw [split apart, fresh]

/-- A union is what is asked of it exactly if the keys of the members hold. -/
theorem unionLaw_iff (a b : SetStore) : UnionLaw a b (a.union b keyOf) ↔ KeysHold keyOf a b := by
  constructor
  · intro law
    obtain ⟨apart, fresh⟩ := (values_union_iff keyOf a b).1 law.listing
    refine ⟨fun k => ?_, apart, fresh⟩
    rw [← contains_union_iff, law.has, Bool.or_eq_true]
  · intro hold
    have listing := (values_union_iff keyOf a b).2 ⟨hold.apart, hold.fresh⟩
    have size : (a.union b keyOf).size = a.size + (b.difference a).size := by
      simpa [values_eq, size_eq] using congrArg List.length listing
    have parts := size_split a b
    have parts' := size_split b a
    have common := size_intersection_comm a b
    refine ⟨fun k => ?_, ?_, ?_, listing⟩
    · rw [Bool.eq_iff_iff, contains_union_iff, hold.same, Bool.or_eq_true]
    · omega
    · omega

/-- Keys hold if no member has been written to since it was added. -/
theorem keysHold_of_kept {a b : SetStore} (kept : ∀ row ∈ a.rows ++ b.rows, keyOf row.2 = row.1) :
    KeysHold keyOf a b := by
  have keys : ∀ rows : List SetRow, (∀ row ∈ rows, keyOf row.2 = row.1) →
      (rows.map Prod.snd).map keyOf = rows.map Prod.fst := by
    intro rows kept
    rw [List.map_map]
    exact List.map_congr_left kept
  have keptA : ∀ row ∈ a.rows, keyOf row.2 = row.1 :=
    fun row member => kept row (List.mem_append_left _ member)
  have keptB : ∀ row ∈ b.rows, keyOf row.2 = row.1 :=
    fun row member => kept row (List.mem_append_right _ member)
  refine ⟨fun k => ?_, ?_, ?_⟩
  · rw [values_eq, values_eq, ← List.map_append, keys _ kept, List.map_append, List.mem_append,
      contains_iff, contains_iff]
  · rw [values_eq, keys _ keptA]
    exact a.keys_nodup
  · rw [values_eq, values_eq, values_eq, keys _ keptA, firsts_of_kept keyOf b.keys_nodup keptB,
      rows_difference]
    simp only [contains_eq, decide_not]

end SetStore

/-! ### Calls -/

namespace SetAlgebra

/-- An operation on two Sets gives a new instance of the class, which owns what the operation makes
of the two stores. -/
theorem on_call (re : Reentry) (operation : SetAlgebra) {cls : Ref .cls} {m : Machine}
    {r₁ r₂ : Ref .inst} {a b : SetStore} (owns₁ : m.heap.Owns r₁ (.set a))
    (owns₂ : m.heap.Owns r₂ (.set b)) (sameClass : (m.heap.inst r₂).cls = cls) :
    (operation.call re cls (some (.inst r₁)) [.inst r₂]).on m =
      (.ok (.inst m.heap.nextInstance),
        { m with heap := m.heap.newOwner cls (.set (operation.combine m.heap.keyOf a b)) }) := by
  have accepted : operand m.heap operation.label cls (.inst r₂) = .ok r₂ := if_pos sameClass
  have mine := Native.on_readStore SetStore.lawful owns₁ operation.label id
  have theirs := Heap.store_of_owns SetStore.lawful owns₂ operation.label
  simp only [call, Arguments.exactly, List.length_singleton, if_true, List.getD_cons_zero, accepted,
    Except.mapError, Run.on_bind, Action.on_check_ok, Action.on_get, Action.on_viewHeap,
    Action.on_readHeap, Action.on_onHeap, mine, theirs]
  have attached := Action.on_attach (m := { m with heap := (m.heap.newInstance cls).2 })
    (m.heap.bare_newInstance cls) (.set (operation.combine m.heap.keyOf a b))
  have new : (m.heap.newInstance cls).1 = m.heap.nextInstance := rfl
  rw [new, id, attached]
  rfl

/-- The union of two Sets is a new Set of the first members of each present key, under these keys,
so it has the present keys of all members; and nothing else changes. It is what is asked of a union
exactly if the keys of the members hold, and so at least if no member has been written to since it
was added. -/
theorem union_law_iff_keysHold (re : Reentry) {cls : Ref .cls} {m : Machine} {r₁ r₂ : Ref .inst}
    {a b : SetStore} (owns₁ : m.heap.Owns r₁ (.set a)) (owns₂ : m.heap.Owns r₂ (.set b))
    (sameClass : (m.heap.inst r₂).cls = cls) :
    ∃ (r : Ref .inst) (u : SetStore) (instances : Cells .inst Instance),
      (union.call re cls (some (.inst r₁)) [.inst r₂]).on m =
        (.ok (.inst r), { m with heap := { m.heap with instances } }) ∧
      m.heap.instances.get? r = none ∧
      instances.get? r = some { cls, resource := some (.set u) } ∧
      (∀ s content, m.heap.instances.get? s = some content → instances.get? s = some content) ∧
      u.rows = (SetStore.firsts m.heap.keyOf [] (a.values ++ b.values)).map
        (fun v => (m.heap.keyOf v, v)) ∧
      (∀ k, u.contains k = true ↔ k ∈ (a.values ++ b.values).map m.heap.keyOf) ∧
      (SetStore.UnionLaw a b u ↔ SetStore.KeysHold m.heap.keyOf a b) ∧
      ((∀ row ∈ a.rows ++ b.rows, m.heap.keyOf row.2 = row.1) → SetStore.UnionLaw a b u) := by
  have called := on_call re union owns₁ owns₂ sameClass
  have law := SetStore.unionLaw_iff m.heap.keyOf a b
  refine ⟨m.heap.nextInstance, a.union b m.heap.keyOf, _, called, m.heap.get?_nextInstance,
    m.heap.get?_newOwner cls _, ?_, SetStore.rows_union _ a b, SetStore.contains_union_iff _ a b,
    law, ?_⟩
  · intro s content old
    exact Heap.get?_newOwner_of_old old cls _
  · intro kept
    exact law.2 (SetStore.keysHold_of_kept _ kept)

/-- The Set of null and true. -/
def nullAndTrue : SetStore := SetStore.empty.insertAll (Heap.keyOf {}) [.null, .boolean true]

/-- The Set of true and false. -/
def trueAndFalse : SetStore :=
  SetStore.empty.insertAll (Heap.keyOf {}) [.boolean true, .boolean false]

/-- A machine with these two Sets. -/
def overlapping : Machine := .fresh
  { instances := ⟨#[{ cls := ⟨0⟩, resource := some (.set nullAndTrue) },
      { cls := ⟨0⟩, resource := some (.set trueAndFalse) }]⟩ }

/-- Their union is what is asked of it. -/
theorem union_law_iff_keysHold_overlapping :
    overlapping.heap.Owns ⟨0⟩ (.set nullAndTrue) ∧ overlapping.heap.Owns ⟨1⟩ (.set trueAndFalse) ∧
      (overlapping.heap.inst ⟨1⟩).cls = ⟨0⟩ ∧
      ∃ (r : Ref .inst) (u : SetStore) (m : Machine),
        (union.call .idle ⟨0⟩ (some (.inst ⟨0⟩)) [.inst ⟨1⟩]).on overlapping = (.ok (.inst r), m) ∧
        m.heap.Owns r (.set u) ∧ SetStore.UnionLaw nullAndTrue trueAndFalse u := by
  have mine : overlapping.heap.Owns ⟨0⟩ (.set nullAndTrue) := rfl
  have theirs : overlapping.heap.Owns ⟨1⟩ (.set trueAndFalse) := rfl
  have sameClass : (overlapping.heap.inst ⟨1⟩).cls = ⟨0⟩ := rfl
  obtain ⟨r, u, instances, done, -, owner, -, -, -, -, law⟩ :=
    union_law_iff_keysHold .idle mine theirs sameClass
  refine ⟨mine, theirs, sameClass, r, u, _, done, ?_, law (by decide)⟩
  simp [Heap.Owns, Heap.owner, owner]

/-- Two bare instances, an array of null, an array of two nulls, and an array of these arrays. -/
def beforeWriting : Machine := .fresh
  { arrays := ⟨#[#[.null], #[.null, .null], #[.array ⟨0⟩, .array ⟨1⟩]]⟩
    instances := ⟨#[{ cls := ⟨0⟩ }, { cls := ⟨0⟩ }]⟩ }

/-- The machine after a Set of the two arrays and an empty Set are constructed and null is appended
to the first array, which then holds what the second one holds. -/
def afterWriting : Machine :=
  let m := ((SetMethod.construct.call .idle (some (.inst ⟨0⟩)) [.array ⟨2⟩]).on beforeWriting).2
  let m := ((SetMethod.construct.call .idle (some (.inst ⟨1⟩)) []).on m).2
  { m with heap := m.heap.append ⟨0⟩ [.null] }

/-- The union of the two Sets has one member where the first Set has two, and is no longer found to
have an array of one null. -/
theorem union_loses_member :
    ∃ (a b u : SetStore) (m : Machine), afterWriting.heap.Owns ⟨0⟩ (.set a) ∧
      afterWriting.heap.Owns ⟨1⟩ (.set b) ∧
      (union.call .idle ⟨0⟩ (some (.inst ⟨0⟩)) [.inst ⟨1⟩]).on afterWriting =
        (.ok (.inst ⟨2⟩), m) ∧
      m.heap.Owns ⟨2⟩ (.set u) ∧ a.size = 2 ∧ u.size = 1 ∧
      a.contains (.sequence [.null]) = true ∧ u.contains (.sequence [.null]) = false ∧
      ¬ SetStore.UnionLaw a b u := by
  refine ⟨_, _, _, _, rfl, rfl, rfl, rfl, by decide, by decide, by decide, by decide, ?_⟩
  intro law
  exact absurd law.sizeGe (by decide)

end SetAlgebra

end ScriptCore
