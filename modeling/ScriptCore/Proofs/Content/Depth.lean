import Mathlib.Data.List.Perm.Subperm
import Mathlib.Logic.Relation
import ScriptCore.Heap.Content
import ScriptCore.Proofs.Index.View

/-!
How deep values are, and why the depth at which they are looked into does not matter.

A value fits within a depth if no way down through arrays and objects uses the depth up. In a heap
in which no value reaches itself every way down passes different cells, so every value fits within
`Heap.nesting` (`fits_nesting`). Keys and equality then satisfy the equations of an unbounded
recursion, and statements about values can be shown from their parts (`Acyclic.induction`).
-/

namespace ScriptCore.Heap

/-! ### Parts and reachability -/

/-- The values that a value holds: the elements of an array, the values in an object. -/
def parts (h : Heap) : Value → List Value
  | .array r => h.items r
  | .object r => (h.entries r).values
  | _ => []

/-- There is a way of at least one step down from the first value to the second. -/
def Reaches (h : Heap) : Value → Value → Prop := Relation.TransGen fun v part => part ∈ h.parts v

/-- The second value is the first one or is reached from it. -/
def Contains (h : Heap) : Value → Value → Prop :=
  Relation.ReflTransGen fun v part => part ∈ h.parts v

/-- No value reaches itself. -/
def Acyclic (h : Heap) : Prop := ∀ v, ¬ h.Reaches v v

/-- A heap is acyclic if a rank falls on every step down. -/
theorem acyclic_of_rank {h : Heap} (rank : Value → Nat)
    (falls : ∀ v, ∀ part ∈ h.parts v, rank part < rank v) : h.Acyclic := by
  intro v cycle
  have below : ∀ {a b}, h.Reaches a b → rank b < rank a := by
    intro a b reaches
    induction reaches with
    | single step => exact falls _ _ step
    | tail _ step ih => exact Nat.lt_trans (falls _ _ step) ih
  exact Nat.lt_irrefl _ (below cycle)

/-- The arrays and objects of the heap. -/
def containers (h : Heap) : List Value :=
  (List.range h.arrays.size).map (fun i => .array ⟨i⟩) ++
    (List.range h.objects.size).map fun i => .object ⟨i⟩

theorem length_containers_lt (h : Heap) : h.containers.length < h.nesting := by
  simp only [containers, nesting, List.length_append, List.length_map, List.length_range]
  omega

/-- Only cells of the heap hold anything. -/
theorem mem_containers {h : Heap} {v part : Value} (held : part ∈ h.parts v) :
    v ∈ h.containers := by
  cases v with
  | array r =>
    have bound : r.index < h.arrays.size := by
      by_contra outside
      simp [parts, items, elements, Cells.get?, Array.getElem?_eq_none (Nat.le_of_not_lt outside)]
        at held
    exact List.mem_append_left _ (List.mem_map.2 ⟨r.index, List.mem_range.2 bound, rfl⟩)
  | object r =>
    have bound : r.index < h.objects.size := by
      by_contra outside
      simp [parts, entries, Cells.get?, Array.getElem?_eq_none (Nat.le_of_not_lt outside),
        OrderedIndex.values, OrderedIndex.toList_empty] at held
    exact List.mem_append_right _ (List.mem_map.2 ⟨r.index, List.mem_range.2 bound, rfl⟩)
  | _ => simp [parts] at held

/-! ### Fitting within a depth -/

/-- Whether a value is an array or an object. -/
def isContainer : Value → Bool
  | .array _ | .object _ => true
  | _ => false

/-- No way down from a value uses up a depth. -/
def FitsWithin (h : Heap) : Nat → Value → Prop
  | 0, v => isContainer v = false
  | depth + 1, v => ∀ part ∈ h.parts v, h.FitsWithin depth part

theorem parts_of_plain {h : Heap} {v : Value} (plain : isContainer v = false) : h.parts v = [] := by
  cases v <;> simp_all [isContainer, parts]

/-- If nothing that a value contains reaches itself, the value, below so many different cells, fits
within what is left of the nesting. -/
theorem fits_below {h : Heap} (depth : Nat) (v : Value) (above : List Value)
    (acyclic : ∀ below, h.Contains v below → ¬ h.Reaches below below)
    (distinct : above.Nodup) (cells : above ⊆ h.containers)
    (reach : ∀ a ∈ above, h.Reaches a v) (enough : h.nesting ≤ depth + above.length) :
    h.FitsWithin depth v := by
  induction depth generalizing v above with
  | zero =>
    have few := (List.subperm_of_subset distinct cells).length_le
    have := h.length_containers_lt
    omega
  | succ depth ih =>
    intro part held
    have fresh : v ∉ above := fun member => acyclic v .refl (reach v member)
    refine ih part (v :: above) (fun below contains => acyclic below (contains.head held))
      (List.nodup_cons.2 ⟨fresh, distinct⟩) (List.cons_subset.2 ⟨mem_containers held, cells⟩) ?_ ?_
    · intro a member
      rcases List.mem_cons.1 member with rfl | member
      · exact .single held
      · exact (reach a member).tail held
    · rw [List.length_cons]
      omega

/-- A value fits within the nesting if nothing that it contains reaches itself. -/
theorem fits_nesting_of {h : Heap} {v : Value}
    (acyclic : ∀ below, h.Contains v below → ¬ h.Reaches below below) :
    h.FitsWithin h.nesting v :=
  fits_below h.nesting v [] acyclic List.nodup_nil (List.nil_subset _) (by simp) (by simp)

/-- In an acyclic heap every value fits within the nesting. -/
theorem fits_nesting {h : Heap} (acyclic : h.Acyclic) (v : Value) : h.FitsWithin h.nesting v :=
  fits_nesting_of fun below _ => acyclic below

/-- What holds of a value as soon as it holds of its parts holds of every value. -/
theorem Acyclic.induction {h : Heap} (acyclic : h.Acyclic) {P : Value → Prop}
    (step : ∀ v, (∀ part ∈ h.parts v, P part) → P v) (v : Value) : P v := by
  have within : ∀ depth v, h.FitsWithin depth v → P v := by
    intro depth
    induction depth with
    | zero =>
      intro v plain
      exact step v (by simp [parts_of_plain plain])
    | succ depth ih =>
      intro v fits
      exact step v fun part held => ih part (fits part held)
  exact within h.nesting v (fits_nesting acyclic v)

/-! ### Keys -/

/-- The key of a value is the same at all depths that the value fits within. -/
theorem keyWithin_eq {h : Heap} {depth other : Nat} {v : Value} (fits : h.FitsWithin depth v)
    (fits' : h.FitsWithin other v) : h.keyWithin depth v = h.keyWithin other v := by
  induction depth generalizing other v with
  | zero => cases v <;> cases other <;> simp_all [FitsWithin, isContainer, keyWithin]
  | succ depth ih =>
    cases other with
    | zero => cases v <;> simp_all [FitsWithin, isContainer, keyWithin]
    | succ other =>
      cases v with
      | array r =>
        rw [keyWithin, keyWithin, List.map_congr_left]
        exact fun part held => ih (fits part held) (fits' part held)
      | object r =>
        rw [keyWithin, keyWithin, List.map_congr_left]
        rintro ⟨name, part⟩ member
        have held : part ∈ h.parts (.object r) := List.mem_map_of_mem (f := Prod.snd) member
        exact congrArg (name, ·) (ih (fits part held) (fits' part held))
      | _ => simp [keyWithin]

section Equations

variable {h : Heap} (acyclic : h.Acyclic)

include acyclic

theorem keyWithin_part {v part : Value} (held : part ∈ h.parts v) :
    h.keyWithin (h.arrays.size + h.objects.size + h.promises.size) part = h.keyOf part :=
  keyWithin_eq (fits_nesting acyclic v part held) (fits_nesting acyclic part)

theorem keyOf_array (r : Ref .array) :
    h.keyOf (.array r) = .sequence ((h.items r).map h.keyOf) := by
  rw [keyOf, nesting, keyWithin, List.map_congr_left]
  exact fun part (held : part ∈ h.parts (.array r)) => keyWithin_part acyclic held

theorem keyOf_object (r : Ref .object) :
    h.keyOf (.object r) = .record (Key.sortFields ((h.entries r).toList.map fun entry =>
      (entry.1, h.keyOf entry.2))) := by
  rw [keyOf, nesting, keyWithin, List.map_congr_left]
  rintro ⟨name, part⟩ member
  have held : part ∈ h.parts (.object r) := List.mem_map_of_mem (f := Prod.snd) member
  exact congrArg (name, ·) (keyWithin_part acyclic held)

end Equations

/-! ### Equality -/

/-- Whether two values are equal does not depend on the depth, as long as the first one fits. -/
theorem equalWithin_eq {h : Heap} {depth other : Nat} {a : Value} (fits : h.FitsWithin depth a)
    (fits' : h.FitsWithin other a) (b : Value) :
    h.equalWithin depth a b = h.equalWithin other a b := by
  induction depth generalizing other a b with
  | zero =>
    cases other <;> cases a <;> first | rfl | simp_all [FitsWithin, isContainer]
  | succ depth ih =>
    cases other with
    | zero => cases a <;> first | rfl | simp_all [FitsWithin, isContainer]
    | succ other =>
      cases a with
      | array r =>
        cases b with
        | array s =>
          have sameItems : ∀ pair ∈ (h.items r).zip (h.items s),
              h.equalWithin depth pair.1 pair.2 = h.equalWithin other pair.1 pair.2 := by
            intro pair member
            have held := (List.of_mem_zip member).1
            exact ih (fits _ held) (fits' _ held) _
          rw [equalWithin, equalWithin, Bool.eq_iff_iff]
          simp only [Bool.or_eq_true, Bool.and_eq_true, List.all_eq_true]
          refine or_congr_right (and_congr_right fun _ => forall₂_congr fun pair member => ?_)
          rw [sameItems pair member]
        | _ => rfl
      | object r =>
        cases b with
        | object s =>
          have sameEntries : ∀ entry ∈ (h.entries r).toList, ∀ b,
              h.equalWithin depth entry.2 b = h.equalWithin other entry.2 b := by
            intro entry member b
            have held : entry.2 ∈ h.parts (.object r) := List.mem_map_of_mem member
            exact ih (fits _ held) (fits' _ held) b
          rw [equalWithin, equalWithin, Bool.eq_iff_iff]
          simp only [Bool.or_eq_true, Bool.and_eq_true, List.all_eq_true]
          refine or_congr_right (and_congr_right fun _ => forall₂_congr fun entry member => ?_)
          split
          · rw [sameEntries entry member]
          · rfl
        | _ => rfl
      | _ => simp [equalWithin]

section Equations

variable {h : Heap} (acyclic : h.Acyclic)

include acyclic

theorem equalWithin_part {v part : Value} (held : part ∈ h.parts v) (b : Value) :
    h.equalWithin (h.arrays.size + h.objects.size + h.promises.size) part b = h.equal part b :=
  equalWithin_eq (fits_nesting acyclic v part held) (fits_nesting acyclic part) b

/-- Arrays are equal if they are the same one or if their items are equal place by place. -/
theorem equal_array (r s : Ref .array) :
    h.equal (.array r) (.array s) = true ↔
      r = s ∨ List.Forall₂ (fun a b => h.equal a b = true) (h.items r) (h.items s) := by
  rw [equal, nesting, equalWithin, Bool.or_eq_true, decide_eq_true_iff, List.forall₂_iff_zip,
    Bool.and_eq_true, decide_eq_true_iff, List.all_eq_true, Prod.forall]
  refine or_congr_right (and_congr_right fun _ => forall₂_congr fun a b => ?_)
  refine forall_congr' fun member => ?_
  have held : a ∈ h.parts (.array r) := (List.of_mem_zip member).1
  exact Bool.eq_iff_iff.1 (equalWithin_part acyclic held b)

/-- Objects are equal if they are the same one or if they have equally many entries and for every
entry of the first the second has an equal value under its name. -/
theorem equal_object (r s : Ref .object) :
    h.equal (.object r) (.object s) = true ↔
      r = s ∨ (h.entries r).size = (h.entries s).size ∧
        ∀ entry ∈ (h.entries r).toList,
          ∃ b, (h.entries s).get? entry.1 = some b ∧ h.equal entry.2 b = true := by
  rw [equal, nesting, equalWithin, Bool.or_eq_true, decide_eq_true_iff, Bool.and_eq_true,
    decide_eq_true_iff, List.all_eq_true]
  refine or_congr_right (and_congr_right fun _ => forall₂_congr ?_)
  rintro ⟨name, a⟩ member
  have held : a ∈ h.parts (.object r) := List.mem_map_of_mem (f := Prod.snd) member
  cases found : (h.entries s).get? name with
  | none => simp [found]
  | some b => simp [found, equalWithin_part acyclic held]

end Equations

/-- Apart from two arrays and two objects, values are compared by themselves. -/
theorem equal_plain (h : Heap) {a b : Value} (noArrays : ∀ r s, ¬ (a = .array r ∧ b = .array s))
    (noObjects : ∀ r s, ¬ (a = .object r ∧ b = .object s)) : h.equal a b = plainEqual a b := by
  rw [equal, nesting]
  cases a <;> cases b <;> first | rfl | simp_all

end ScriptCore.Heap
