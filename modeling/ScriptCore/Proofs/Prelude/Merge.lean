import ScriptCore.Packages
import ScriptCore.Proofs.Index.View

/-!
Merging tables, where the first one that binds a name wins.

A merge starts with a table of its own and takes the bindings of other tables one after another,
each of them only if its name is new by then. So it has the bindings of its own first, and then the
other names in the order in which they are met, each bound by the first table that binds it.
-/

namespace ScriptCore

/-- A table that holds its own bindings, and then what other tables export. -/
structure MergesExports (own : Table) (exports : List Table) (table : Table) : Prop where
  /-- Its own names come first, then each other name where it is met first. -/
  names : table.keys =
    own.keys ++ ((exports.flatMap OrderedIndex.keys).filter fun name => name ∉ own.keys).eraseDups
  /-- No name is listed twice. -/
  once : table.keys.Nodup
  /-- Nothing is missing. -/
  complete : ∀ exported ∈ exports, exported.keys ⊆ table.keys
  /-- Its own names keep their values. -/
  own_values : ∀ name ∈ own.keys, table.get? name = own.get? name
  /-- Every other name has the value of the first table that exports it. -/
  first_values : ∀ name, name ∉ own.keys →
    table.get? name = exports.findSome? fun exported => exported.get? name

theorem eraseDups_of_nodup {names : List String} (distinct : names.Nodup) :
    names.eraseDups = names := by
  induction names with
  | nil => rfl
  | cons name rest ih =>
    obtain ⟨new, distinct⟩ := List.nodup_cons.1 distinct
    have others : rest.filter (fun other => !other == name) = rest := by
      apply List.filter_eq_self.2
      intro other member
      have apart : other ≠ name := by
        rintro rfl
        exact new member
      simpa using apart
    rw [List.eraseDups_cons, others, ih distinct]

/-- Leaving out the bindings of other names does not matter to a name. -/
theorem lookup_filter_notMem (bindings : List (String × Value)) (names : List String)
    {name : String} (kept : name ∉ names) :
    (bindings.filter fun binding => binding.1 ∉ names).lookup name = bindings.lookup name := by
  induction bindings with
  | nil => rfl
  | cons binding rest ih =>
    obtain ⟨other, value⟩ := binding
    by_cases same : name = other
    · subst same
      rw [List.filter_cons_of_pos (by simpa using kept), List.lookup_cons_self,
        List.lookup_cons_self]
    · have apart : (name == other) = false := beq_eq_false_iff_ne.2 same
      rw [List.lookup_cons, apart, List.filter_cons]
      split
      · rw [List.lookup_cons, apart, ih]
      · exact ih

namespace Packages

variable {bindings : List (String × Value)}

theorem addMissing_cons (table : Table) (binding : String × Value)
    (rest : List (String × Value)) :
    addMissing table (binding :: rest) =
      addMissing (if binding.1 ∈ table.keys then table else table.set binding.1 binding.2)
        rest := by
  rw [addMissing, List.foldl_cons, ← addMissing]
  by_cases known : binding.1 ∈ table.keys
  · rw [if_pos known, if_pos ((table.contains_iff _).2 known)]
  · rw [if_neg known, if_neg (mt (table.contains_iff _).1 known)]

/-- Bindings with distinct names are added at the end, those that are missing. -/
theorem toList_addMissing (table : Table) (distinct : (bindings.map Prod.fst).Nodup) :
    (addMissing table bindings).toList =
      table.toList ++ bindings.filter fun binding => binding.1 ∉ table.keys := by
  induction bindings generalizing table with
  | nil => simp [addMissing]
  | cons binding rest ih =>
    obtain ⟨new, distinct⟩ := List.nodup_cons.1 distinct
    rw [addMissing_cons]
    by_cases known : binding.1 ∈ table.keys
    · rw [if_pos known, ih table distinct, List.filter_cons_of_neg (by simpa using known)]
    · have added : (table.set binding.1 binding.2).toList = table.toList ++ [binding] := by
        rw [OrderedIndex.toList_set, Entries.put_of_notMem known]
      -- The name that was added is none of those that follow.
      have others : rest.filter (fun other => other.1 ∉ (table.set binding.1 binding.2).keys) =
          rest.filter fun other => other.1 ∉ table.keys := by
        apply List.filter_congr
        intro other member
        have apart : other.1 ≠ binding.1 := Entries.ne_of_notMem new member
        have same : other.1 ∈ (table.set binding.1 binding.2).keys ↔ other.1 ∈ table.keys :=
          (OrderedIndex.mem_keys_set ..).trans (or_iff_right apart)
        exact decide_eq_decide.2 (not_congr same)
      rw [if_neg known, ih _ distinct, added, others,
        List.filter_cons_of_pos (by simpa using known), List.append_assoc, List.singleton_append]

section Exports

variable (table exported : Table)

theorem keys_addMissing :
    (addMissing table exported.toList).keys =
      table.keys ++ exported.keys.filter fun name => name ∉ table.keys := by
  rw [OrderedIndex.keys, toList_addMissing table exported.keys_nodup, List.map_append,
    OrderedIndex.keys, OrderedIndex.keys, List.filter_map]
  rfl

theorem get?_addMissing (name : String) :
    (addMissing table exported.toList).get? name = (table.get? name).or (exported.get? name) := by
  rw [OrderedIndex.get?_eq_lookup, toList_addMissing table exported.keys_nodup,
    List.lookup_append, ← OrderedIndex.get?_eq_lookup, exported.get?_eq_lookup]
  cases bound : table.get? name with
  | some v => rfl
  | none =>
    have missing : name ∉ table.keys := (table.get?_eq_none_iff name).1 bound
    rw [lookup_filter_notMem _ _ missing]

end Exports

/-- The table after the bindings of others were taken one after another. -/
def mergeExports (own : Table) (exports : List Table) : Table :=
  exports.foldl (fun table exported => addMissing table exported.toList) own

theorem keys_mergeExports (own : Table) (exports : List Table) :
    (mergeExports own exports).keys =
      own.keys ++ ((exports.flatMap OrderedIndex.keys).filter
        fun name => name ∉ own.keys).eraseDups := by
  induction exports generalizing own with
  | nil => simp [mergeExports]
  | cons exported rest ih =>
    have later := ih (addMissing own exported.toList)
    rw [keys_addMissing] at later
    generalize news : exported.keys.filter (fun name => name ∉ own.keys) = new at later
    have distinct : new.Nodup := news ▸ exported.keys_nodup.filter _
    -- A name is met first later on if it is met first there and is none of the new ones here.
    have others : (rest.flatMap OrderedIndex.keys).filter (fun name => name ∉ own.keys ++ new) =
        ((rest.flatMap OrderedIndex.keys).filter fun name => name ∉ own.keys).removeAll new := by
      rw [List.removeAll, List.filter_filter]
      apply List.filter_congr
      intro name _
      simp [and_comm]
    rw [mergeExports, List.foldl_cons, ← mergeExports, later, others, List.flatMap_cons,
      List.filter_append, news, List.eraseDups_append, eraseDups_of_nodup distinct,
      List.append_assoc]

theorem get?_mergeExports (own : Table) (exports : List Table) (name : String) :
    (mergeExports own exports).get? name =
      (own.get? name).or (exports.findSome? fun exported => exported.get? name) := by
  induction exports generalizing own with
  | nil => simp [mergeExports]
  | cons exported rest ih =>
    have later := ih (addMissing own exported.toList)
    rw [mergeExports, List.foldl_cons, ← mergeExports, later, get?_addMissing, Option.or_assoc,
      List.findSome?_cons]
    cases exported.get? name <;> rfl

theorem mergesExports (own : Table) (exports : List Table) :
    MergesExports own exports (mergeExports own exports) where
  names := keys_mergeExports own exports
  once := OrderedIndex.keys_nodup _
  complete exported member name bound := by
    rw [keys_mergeExports, List.mem_append]
    by_cases known : name ∈ own.keys
    · exact .inl known
    · refine .inr (List.mem_eraseDups.2 ?_)
      simpa [known] using ⟨exported, member, bound⟩
  own_values name bound := by
    rw [get?_mergeExports, Option.or_of_isSome ((own.isSome_get?_iff name).2 bound)]
  first_values name new := by
    rw [get?_mergeExports, (own.get?_eq_none_iff name).2 new]
    rfl

end Packages

end ScriptCore
