import Mathlib.Data.List.Nodup
import ScriptCore.Key

/-!
Fields in the order of their names.

`Key.sortFields` rearranges its fields and puts them in order. Fields with distinct names have one
such arrangement only, so sorting forgets exactly the order (`Key.sortFields_eq_iff`).
-/

namespace ScriptCore.Key

theorem insertField_perm (field : String × Key) (fields : List (String × Key)) :
    (insertField field fields).Perm (field :: fields) := by
  induction fields with
  | nil => exact .refl _
  | cons first rest ih =>
    rw [insertField]
    split
    · exact .refl _
    · exact (ih.cons first).trans (.swap field first rest)

/-- Adding a field keeps the order of names. -/
theorem insertField_ordered {field : String × Key} {fields : List (String × Key)}
    (ordered : fields.Pairwise fun a b => a.1 ≤ b.1) :
    (insertField field fields).Pairwise fun a b => a.1 ≤ b.1 := by
  induction fields with
  | nil => exact List.pairwise_singleton _ _
  | cons first rest ih =>
    obtain ⟨later, ordered⟩ := List.pairwise_cons.1 ordered
    rw [insertField]
    split
    · rename_i less
      have least : field.1 ≤ first.1 := String.not_lt.1 (String.lt_asymm less)
      refine List.pairwise_cons.2 ⟨?_, List.pairwise_cons.2 ⟨later, ordered⟩⟩
      intro other member
      rcases List.mem_cons.1 member with rfl | member
      · exact least
      · exact String.le_trans least (later other member)
    · rename_i notLess
      refine List.pairwise_cons.2 ⟨?_, ih ordered⟩
      intro other member
      rcases List.mem_cons.1 ((insertField_perm field rest).mem_iff.1 member) with rfl | member
      · exact String.not_lt.1 notLess
      · exact later other member

theorem foldl_insertField_perm (fields sorted : List (String × Key)) :
    (fields.foldl (fun sorted field => insertField field sorted) sorted).Perm
      (fields ++ sorted) := by
  induction fields generalizing sorted with
  | nil => exact .refl _
  | cons field rest ih =>
    have inserted := (insertField_perm field sorted).append_left rest
    exact (ih (insertField field sorted)).trans (inserted.trans List.perm_middle)

theorem foldl_insertField_ordered (fields : List (String × Key)) {sorted : List (String × Key)}
    (ordered : sorted.Pairwise fun a b => a.1 ≤ b.1) :
    (fields.foldl (fun sorted field => insertField field sorted) sorted).Pairwise
      fun a b => a.1 ≤ b.1 := by
  induction fields generalizing sorted with
  | nil => exact ordered
  | cons field rest ih => exact ih (insertField_ordered ordered)

/-- Sorting rearranges the fields. -/
theorem sortFields_perm (fields : List (String × Key)) : (sortFields fields).Perm fields := by
  simpa [sortFields] using foldl_insertField_perm fields []

/-- Sorted fields are ordered by name. -/
theorem sortFields_ordered (fields : List (String × Key)) :
    (sortFields fields).Pairwise fun a b => a.1 ≤ b.1 := foldl_insertField_ordered fields .nil

/-- Fields with distinct names are sorted alike exactly if they differ in order only. -/
theorem sortFields_eq_iff {fields others : List (String × Key)}
    (distinct : (fields.map Prod.fst).Nodup) :
    sortFields fields = sortFields others ↔ fields.Perm others := by
  constructor
  · intro same
    exact ((sortFields_perm fields).symm.trans (.of_eq same)).trans (sortFields_perm others)
  · intro rearranged
    have same := (sortFields_perm fields).trans (rearranged.trans (sortFields_perm others).symm)
    refine List.Perm.eq_of_pairwise ?_ (sortFields_ordered fields) (sortFields_ordered others) same
    intro a b member member' le ge
    have inFields := (sortFields_perm fields).mem_iff.1 member
    have inFields' := (sortFields_perm fields).mem_iff.1 (same.mem_iff.2 member')
    exact List.inj_on_of_nodup_map distinct inFields inFields' (String.le_antisymm le ge)

end ScriptCore.Key
