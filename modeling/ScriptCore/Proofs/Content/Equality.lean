import Mathlib.Data.List.Forall2
import ScriptCore.Proofs.Content.Depth
import ScriptCore.Proofs.Content.Fields
import ScriptCore.Proofs.Numbers

/-!
Keys and equality of values agree.

In a heap in which no value reaches itself, equality is described by its cases (`equal_iff`) and
keys by their equations. Two walks over the parts of a value then show that equal values have the
same key and that values with the same key are equal as long as no NaN is met; that the key of an
object depends on what is found under each name only; and that equality is symmetric and
transitive.
-/

namespace ScriptCore

/-! ### References -/

namespace Ref

variable {kind other : CellKind}

@[simp]
theorem index_inj {r s : Ref kind} : r.index = s.index ↔ r = s := by
  cases r
  cases s
  simp

@[simp]
theorem identity_eq_iff {r : Ref kind} {s : Ref other} :
    r.identity = s.identity ↔ kind = other ∧ r.index = s.index := by simp [identity]

end Ref

namespace Heap

/-! ### The cases of equality -/

/-- What makes two values equal: equal numbers; being the same value; equal items place by place;
equal values, or none, under every name. -/
inductive Alike (h : Heap) : Value → Value → Prop where
  | numbers {x y : Binary64} (same : x.numEq y = true) : Alike h (.number x) (.number y)
  | same {v : Value} (notNumber : ∀ n, v ≠ .number n) : Alike h v v
  | arrays {r s : Ref .array}
      (items : List.Forall₂ (fun a b => h.equal a b = true) (h.items r) (h.items s)) :
      Alike h (.array r) (.array s)
  | objects {r s : Ref .object}
      (entries : ∀ name, Option.Rel (fun a b => h.equal a b = true) ((h.entries r).get? name)
        ((h.entries s).get? name)) :
      Alike h (.object r) (.object s)

/-- No NaN is found in a value. -/
def NaNFree (h : Heap) (v : Value) : Prop :=
  ∀ n, h.Contains v (.number n) → n.isNaN = false

theorem NaNFree.part {h : Heap} {v part : Value} (free : h.NaNFree v) (held : part ∈ h.parts v) :
    h.NaNFree part := fun n below => free n (below.head held)

theorem NaNFree.of_parts {h : Heap} {v : Value} (own : ∀ n, v = .number n → n.isNaN = false)
    (parts : ∀ part ∈ h.parts v, h.NaNFree part) : h.NaNFree v := by
  intro n below
  rcases below.cases_head with same | ⟨part, held, below⟩
  · exact own n same
  · exact parts part held n below

/-- What an object has under a name is a part of it. -/
theorem mem_parts_of_get? {h : Heap} {r : Ref .object} {name : String} {v : Value}
    (found : (h.entries r).get? name = some v) : v ∈ h.parts (.object r) :=
  List.mem_map.2 ⟨(name, v), (OrderedIndex.mem_toList_iff _ name v).2 found, rfl⟩

theorem rel_iff {R : Value → Value → Prop} {x y : Option Value} :
    Option.Rel R x y ↔ x = none ∧ y = none ∨ ∃ a b, x = some a ∧ y = some b ∧ R a b := by
  cases x <;> cases y <;> simp

theorem rel_of_map_eq {f g : Value → Key} {x y : Option Value} (same : x.map f = y.map g) :
    Option.Rel (fun a b => f a = g b) x y := by
  cases x <;> cases y <;> simp_all

theorem plainEqual_iff (a b : Value) :
    plainEqual a b = true ↔
      (∃ x y, a = .number x ∧ b = .number y ∧ x.numEq y = true) ∨
        a = b ∧ ∀ n, a ≠ .number n := by
  cases a <;> cases b <;>
    simp [plainEqual, Value.sameReference, Value.identity]

section Acyclic

variable {h : Heap} (acyclic : h.Acyclic)

include acyclic

/-- Objects are equal if they are the same one or if under every name both have equal values or
both have none. -/
theorem equal_object_iff (r s : Ref .object) :
    h.equal (.object r) (.object s) = true ↔
      r = s ∨ ∀ name, Option.Rel (fun a b => h.equal a b = true) ((h.entries r).get? name)
        ((h.entries s).get? name) := by
  rw [equal_object acyclic]
  refine or_congr_right ⟨fun ⟨size, found⟩ name => ?_, fun named => ⟨?_, ?_⟩⟩
  · have included : (h.entries r).toList.map Prod.fst ⊆ (h.entries s).toList.map Prod.fst := by
      intro name present
      obtain ⟨⟨name, a⟩, member, rfl⟩ := List.mem_map.1 present
      obtain ⟨b, other, -⟩ := found _ member
      exact List.mem_map.2 ⟨_, (OrderedIndex.mem_toList_iff _ _ _).2 other, rfl⟩
    cases here : (h.entries r).get? name with
    | none =>
      have absent := ((h.entries r).get?_eq_none_iff name).1 here
      have absent' := mt (OrderedIndex.keys_subset_of_size size included · ) absent
      rw [((h.entries s).get?_eq_none_iff name).2 absent']
      exact .none
    | some a =>
      obtain ⟨b, there, same⟩ := found _ ((OrderedIndex.mem_toList_iff _ _ _).2 here)
      rw [there]
      exact .some same
  · refine OrderedIndex.size_eq_of_keys fun name => not_iff_not.1 ?_
    rw [← OrderedIndex.get?_eq_none_iff, ← OrderedIndex.get?_eq_none_iff]
    rcases rel_iff.1 (named name) with ⟨here, there⟩ | ⟨a, b, here, there, -⟩ <;>
      simp [here, there]
  · rintro ⟨name, a⟩ member
    rw [OrderedIndex.mem_toList_iff] at member
    rcases rel_iff.1 (named name) with ⟨here, -⟩ | ⟨a', b, here, there, same⟩ <;>
      rw [member] at here <;> cases here
    exact ⟨b, there, same⟩

omit acyclic in
/-- Every reference and every scalar but NaN equals itself. -/
theorem equal_refl (v : Value) (notNaN : ∀ n, v = .number n → n.isNaN = false) :
    h.equal v v = true := by
  cases v <;>
    simp_all [equal, nesting, equalWithin, plainEqual, Value.sameReference, Value.identity,
      Binary64.numEq]

/-- Values are equal exactly in the cases listed. -/
theorem equal_iff (a b : Value) : h.equal a b = true ↔ h.Alike a b := by
  constructor
  · intro same
    by_cases arrays : ∃ r s, a = .array r ∧ b = .array s
    · obtain ⟨r, s, rfl, rfl⟩ := arrays
      rcases (equal_array acyclic r s).1 same with rfl | items
      · exact .same nofun
      · exact .arrays items
    by_cases objects : ∃ r s, a = .object r ∧ b = .object s
    · obtain ⟨r, s, rfl, rfl⟩ := objects
      rcases (equal_object_iff acyclic r s).1 same with rfl | entries
      · exact .same nofun
      · exact .objects entries
    simp only [not_exists] at arrays objects
    rw [equal_plain h arrays objects, plainEqual_iff] at same
    rcases same with ⟨x, y, rfl, rfl, same⟩ | ⟨rfl, notNumber⟩
    · exact .numbers same
    · exact .same notNumber
  · intro alike
    cases alike with
    | numbers same => exact same
    | same notNumber => exact equal_refl a fun n number => absurd number (notNumber n)
    | arrays items => exact (equal_array acyclic _ _).2 (.inr items)
    | objects entries => exact (equal_object_iff acyclic _ _).2 (.inr entries)

end Acyclic

/-! ### Keys of arrays and objects -/

/-- Relates lists place by place, knowing that the first list holds what is related. -/
theorem forall₂_of_mem {R S : Value → Value → Prop} {as bs : List Value}
    (related : List.Forall₂ R as bs) (implies : ∀ a ∈ as, ∀ b, R a b → S a b) :
    List.Forall₂ S as bs := by
  refine ((List.forall₂_and_left as bs).2 ⟨fun a member => member, related⟩).imp ?_
  rintro a b ⟨member, same⟩
  exact implies a member b same

section Keys

variable {h h' : Heap} (acyclic : h.Acyclic) (acyclic' : h'.Acyclic)

/-- Lists have the same keys exactly if they have the same keys place by place. -/
theorem keys_eq_iff (as bs : List Value) :
    as.map h.keyOf = bs.map h'.keyOf ↔ List.Forall₂ (fun a b => h.keyOf a = h'.keyOf b) as bs := by
  rw [← List.forall₂_eq_eq_eq, List.forall₂_map_left_iff, List.forall₂_map_right_iff]

include acyclic acyclic'

theorem keyOf_array_eq_iff (r s : Ref .array) :
    h.keyOf (.array r) = h'.keyOf (.array s) ↔
      List.Forall₂ (fun a b => h.keyOf a = h'.keyOf b) (h.items r) (h'.items s) := by
  rw [keyOf_array acyclic, keyOf_array acyclic', Key.sequence.injEq, keys_eq_iff]

/-- Objects have the same key exactly if under every name both have values with the same key or
both have none. -/
theorem keyOf_object_eq_iff (r s : Ref .object) :
    h.keyOf (.object r) = h'.keyOf (.object s) ↔
      ∀ name, ((h.entries r).get? name).map h.keyOf = ((h'.entries s).get? name).map h'.keyOf := by
  have distinct : ∀ (f : Value → Key) (table : Table),
      ((table.toList.map fun entry => (entry.1, f entry.2)).map Prod.fst).Nodup := by
    intro f table
    rw [Entries.keys_map]
    exact table.keys_nodup
  rw [keyOf_object acyclic, keyOf_object acyclic', Key.record.injEq,
    Key.sortFields_eq_iff (distinct _ _), Entries.perm_iff (distinct _ _) (distinct _ _)]
  simp only [Entries.lookup_map, OrderedIndex.get?_eq_lookup]

end Keys

/-! ### Keys and equality -/

section Agreement

variable {h : Heap} (acyclic : h.Acyclic)

include acyclic

/-- Equal values have the same key. -/
theorem keyOf_eq_of_equal (a b : Value) (same : h.equal a b = true) : h.keyOf a = h.keyOf b := by
  induction a using acyclic.induction generalizing b with
  | step a ih =>
    cases (equal_iff acyclic a b).1 same with
    | numbers same =>
      have number := (Binary64.numEq_iff _ _).1 same
      exact congrArg Key.number ((Binary64.normalize_eq_iff number.1 _).2 same)
    | same => rfl
    | arrays items =>
      rw [keyOf_array_eq_iff acyclic acyclic]
      exact forall₂_of_mem items fun a held b same => ih a held b same
    | @objects r s entries =>
      rw [keyOf_object_eq_iff acyclic acyclic]
      intro name
      rcases rel_iff.1 (entries name) with ⟨here, there⟩ | ⟨a, b, here, there, same⟩
      · rw [here, there, Option.map_none]
      · rw [here, there, Option.map_some, Option.map_some, ih a (mem_parts_of_get? here) b same]

/-- Values with the same key are equal if the first one is free of NaN. -/
theorem equal_of_keyOf_eq (a b : Value) (free : h.NaNFree a) (same : h.keyOf a = h.keyOf b) :
    h.equal a b = true := by
  induction a using acyclic.induction generalizing b with
  | step a ih =>
    rw [equal_iff acyclic]
    by_cases arrays : ∃ r s, a = .array r ∧ b = .array s
    · obtain ⟨r, s, rfl, rfl⟩ := arrays
      rw [keyOf_array_eq_iff acyclic acyclic] at same
      exact .arrays (forall₂_of_mem same fun a held b same => ih a held b (free.part held) same)
    by_cases objects : ∃ r s, a = .object r ∧ b = .object s
    · obtain ⟨r, s, rfl, rfl⟩ := objects
      rw [keyOf_object_eq_iff acyclic acyclic] at same
      refine .objects fun name => rel_iff.2 ?_
      rcases rel_iff.1 (rel_of_map_eq (same name)) with ⟨here, there⟩ | ⟨a, b, here, there, same⟩
      · exact .inl ⟨here, there⟩
      · have held := mem_parts_of_get? here
        exact .inr ⟨a, b, here, there, ih a held b (free.part held) same⟩
    by_cases numbers : ∃ x, a = .number x
    · obtain ⟨x, rfl⟩ := numbers
      cases b with
      | number y =>
        have number : x.isNaN = false := free x .refl
        exact .numbers ((Binary64.normalize_eq_iff number y).1 (Key.number.inj same))
      | _ => simp [keyOf, nesting, keyWithin] at same
    · have plain : a = b := by
        cases a <;> cases b <;> simp_all [keyOf, nesting, keyWithin]
      exact plain ▸ .same fun n number => numbers ⟨n, number⟩

/-- Equality is symmetric. -/
theorem equal_symm (a b : Value) (same : h.equal a b = true) : h.equal b a = true := by
  induction a using acyclic.induction generalizing b with
  | step a ih =>
    rw [equal_iff acyclic]
    cases (equal_iff acyclic a b).1 same with
    | numbers same =>
      obtain ⟨number, number', level⟩ := (Binary64.numEq_iff _ _).1 same
      exact .numbers ((Binary64.numEq_iff _ _).2 ⟨number', number, level.symm⟩)
    | same notNumber => exact .same notNumber
    | arrays items => exact .arrays (forall₂_of_mem items ih).flip
    | @objects r s entries =>
      refine .objects fun name => rel_iff.2 ?_
      rcases rel_iff.1 (entries name) with ⟨here, there⟩ | ⟨a, b, here, there, same⟩
      · exact .inl ⟨there, here⟩
      · exact .inr ⟨b, a, there, here, ih a (mem_parts_of_get? here) b same⟩

/-- Equality is transitive. -/
theorem equal_trans (a b c : Value) (same : h.equal a b = true) (same' : h.equal b c = true) :
    h.equal a c = true := by
  induction a using acyclic.induction generalizing b c with
  | step a ih =>
    cases (equal_iff acyclic a b).1 same with
    | numbers level =>
      cases (equal_iff acyclic _ c).1 same' with
      | numbers level' =>
        obtain ⟨number, -, levels⟩ := (Binary64.numEq_iff _ _).1 level
        obtain ⟨-, number', levels'⟩ := (Binary64.numEq_iff _ _).1 level'
        exact (Binary64.numEq_iff _ _).2 ⟨number, number', levels.trans levels'⟩
      | same => exact same
    | same => exact same'
    | @arrays r s items =>
      cases (equal_iff acyclic _ c).1 same' with
      | same => exact same
      | arrays items' =>
        refine (equal_iff acyclic _ _).2 (.arrays ?_)
        rw [List.forall₂_iff_get] at items items' ⊢
        refine ⟨items.1.trans items'.1, fun i below below' => ?_⟩
        exact ih _ (List.get_mem _ _) _ _ (items.2 i below (items.1 ▸ below))
          (items'.2 i (items.1 ▸ below) below')
    | @objects r s entries =>
      cases (equal_iff acyclic _ c).1 same' with
      | same => exact same
      | @objects _ t entries' =>
        refine (equal_iff acyclic _ _).2 (.objects fun name => rel_iff.2 ?_)
        rcases rel_iff.1 (entries name) with ⟨here, there⟩ | ⟨a, b, here, there, same⟩ <;>
          rcases rel_iff.1 (entries' name) with ⟨there', beyond⟩ | ⟨b', c, there', beyond, same'⟩
        · exact .inl ⟨here, beyond⟩
        · rw [there] at there'
          cases there'
        · rw [there] at there'
          cases there'
        · rw [there] at there'
          cases there'
          exact .inr ⟨a, c, here, beyond, ih a (mem_parts_of_get? here) b c same same'⟩

end Agreement

/-- Keys agree with equality: equal values have the same key, and values with the same key are
equal unless a NaN is found in them; equality is symmetric and transitive, and reflexive but for
NaN; the key of an object is a matter of what is found under its names, whatever order its entries
were set in, were set again or followed entries since removed. -/
theorem keyOf_agrees_equal {h h' : Heap} (acyclic : h.Acyclic) (acyclic' : h'.Acyclic) :
    (∀ a b, h.equal a b = true → h.keyOf a = h.keyOf b) ∧
    (∀ a b, h.NaNFree a → h.keyOf a = h.keyOf b → h.equal a b = true) ∧
    (∀ a b, h.equal a b = true → h.equal b a = true) ∧
    (∀ a b c, h.equal a b = true → h.equal b c = true → h.equal a c = true) ∧
    (∀ a, (∀ n, a = .number n → n.isNaN = false) → h.equal a a = true) ∧
    ∀ r s, h.keyOf (.object r) = h'.keyOf (.object s) ↔
      ∀ name, ((h.entries r).get? name).map h.keyOf = ((h'.entries s).get? name).map h'.keyOf :=
  ⟨keyOf_eq_of_equal acyclic, equal_of_keyOf_eq acyclic, equal_symm acyclic, equal_trans acyclic,
    equal_refl, keyOf_object_eq_iff acyclic acyclic'⟩

/-- Two objects with the same entries in another order: an array that holds a zero, of either sign,
and null. The second one has lost an entry. -/
def mirrored : Heap where
  arrays := ⟨#[#[.number Binary64.zero.neg], #[.number .zero]]⟩
  objects := ⟨#[.ofList [("a", .array ⟨0⟩), ("b", .null)],
    (OrderedIndex.ofList [("c", .null), ("b", .null), ("a", .array ⟨1⟩)]).remove "c"]⟩

/-- How deep the values of `mirrored` are. -/
def mirroredRank : Value → Nat
  | .object _ => 2
  | .array _ => 1
  | _ => 0

theorem mirrored_acyclic : mirrored.Acyclic := by
  refine acyclic_of_rank mirroredRank fun v part held => ?_
  have all : ∀ v ∈ mirrored.containers, ∀ part ∈ mirrored.parts v,
      mirroredRank part < mirroredRank v := by decide
  exact all v (mem_containers held) part held

/-- The two objects are equal and so have the same key; the two arrays, free of NaN and with the
same key, are equal; and so are the two objects the other way round. -/
theorem keyOf_agrees_equal_mirrored :
    mirrored.Acyclic ∧ mirrored.keyOf (.object ⟨0⟩) = mirrored.keyOf (.object ⟨1⟩) ∧
      mirrored.NaNFree (.array ⟨0⟩) ∧ mirrored.equal (.array ⟨0⟩) (.array ⟨1⟩) = true ∧
      mirrored.equal (.object ⟨1⟩) (.object ⟨0⟩) = true := by
  have same : mirrored.equal (.object ⟨0⟩) (.object ⟨1⟩) = true := by decide
  have free : mirrored.NaNFree (.array ⟨0⟩) := by
    refine .of_parts nofun fun part held => ?_
    obtain rfl : part = .number Binary64.zero.neg := List.mem_singleton.1 held
    exact .of_parts (by rintro n ⟨⟩; decide) nofun
  obtain ⟨keys, equals, symm, -⟩ := keyOf_agrees_equal mirrored_acyclic mirrored_acyclic
  exact ⟨mirrored_acyclic, keys _ _ same, free, equals _ _ free (by decide), symm _ _ same⟩

end Heap

end ScriptCore
