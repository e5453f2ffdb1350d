import ScriptCore.Proofs.Content.Depth
import ScriptCore.Proofs.Content.Writing
import ScriptCore.Proofs.Numbers

/-!
The display text of an array tells what the array holds.

Trees of arrays are the values built from null, booleans, numbers and strings by arrays, to any
depth. The text of such an array is what is written for its key (`Heap.IsTree.display_eq_written`),
and that can be read back. So two of these arrays are shown alike exactly if they have the same key,
whatever characters their strings have (`Heap.arrays_display_alike_iff`).
-/

namespace ScriptCore

/-! ### Trees of arrays -/

namespace Heap

/-- A value built from null, booleans, numbers and strings by arrays, to any depth. -/
inductive IsTree (h : Heap) : Value → Prop where
  | null : IsTree h .null
  | boolean (b : Bool) : IsTree h (.boolean b)
  | number (n : Binary64) : IsTree h (.number n)
  | text (s : String) : IsTree h (.text s)
  | array {r : Ref .array} (items : ∀ item ∈ h.items r, IsTree h item) : IsTree h (.array r)

namespace IsTree

variable {h : Heap} {v : Value}

theorem part (tree : h.IsTree v) {part : Value} (held : part ∈ h.parts v) : h.IsTree part := by
  cases tree with
  | array items => exact items part held
  | null | boolean | number | text => cases held

theorem contained (tree : h.IsTree v) {below : Value} (contains : h.Contains v below) :
    h.IsTree below := by
  induction contains with
  | refl => exact tree
  | tail _ held ih => exact ih.part held

/-- A tree does not reach itself: what it reaches is built before it. -/
theorem not_reaches (tree : h.IsTree v) : ¬ h.Reaches v v := by
  induction tree with
  | @array r items ih =>
    intro circle
    obtain ⟨part, held, back⟩ := Relation.TransGen.head'_iff.1 circle
    exact ih part held (Relation.TransGen.tail' back held)
  | null | boolean | number | text =>
    intro circle
    obtain ⟨part, held, -⟩ := Relation.TransGen.head'_iff.1 circle
    cases held

/-- A tree fits within the nesting, whatever else the heap has. -/
theorem fits (tree : h.IsTree v) : h.FitsWithin h.nesting v :=
  fits_nesting_of fun _ below => (tree.contained below).not_reaches

/-- The key of a tree is a tree. -/
theorem isTree_keyWithin (tree : h.IsTree v) {depth : Nat} (fits : h.FitsWithin depth v) :
    (h.keyWithin depth v).IsTree := by
  induction tree generalizing depth with
  | null => cases depth <;> exact .null
  | boolean b => cases depth <;> exact .boolean b
  | number n => cases depth <;> exact .number n.normalize_normalize
  | text s => cases depth <;> exact .text s
  | array items ih =>
    cases depth with
    | zero => cases fits
    | succ depth =>
      apply Key.IsTree.sequence
      intro k member
      obtain ⟨item, held, rfl⟩ := List.mem_map.1 member
      exact ih item held (fits item held)

theorem keyOf_array {r : Ref .array} (tree : h.IsTree (.array r)) :
    h.keyOf (.array r) = .sequence ((h.items r).map h.keyOf) := by
  rw [keyOf, nesting, keyWithin, List.map_congr_left]
  intro part held
  exact keyWithin_eq (tree.fits part held) (tree.part held).fits

/-- Trees with the same key are of the same type. -/
theorem typeName_eq {h' : Heap} {w : Value} (tree : h.IsTree v) (tree' : h'.IsTree w)
    (same : h.keyOf v = h'.keyOf w) : v.typeName = w.typeName := by
  cases tree <;> cases tree' <;> first | rfl | simp [keyOf, nesting, keyWithin] at same

variable {numberText : Binary64 → String} (tells : TellsNumbers numberText)

include tells

/-- The text of a nested tree is what is written for its key. -/
theorem displayWithin_eq_written (tree : h.IsTree v) {depth : Nat}
    (fits : h.FitsWithin depth v) :
    (h.displayWithin numberText depth true v).toList =
      (h.keyWithin depth v).written numberText := by
  induction tree generalizing depth with
  | null => cases depth <;> rfl
  | boolean b => cases depth <;> rfl
  | number n =>
    have same := (tells.same_iff n n.normalize).2 n.normalize_normalize.symm
    cases depth <;> exact congrArg String.toList same
  | text s => cases depth <;> exact String.toList_ofList
  | @array r items ih =>
    cases depth with
    | zero => cases fits
    | succ depth =>
      have each : ∀ item ∈ h.items r,
          (h.displayWithin numberText depth true item).toList =
            (h.keyWithin depth item).written numberText :=
        fun item held => ih item held (fits item held)
      rw [keyWithin, Key.written_sequence, ← Key.intercalate_written, List.map_map,
        Function.comp_def, ← List.map_congr_left each]
      simp [displayWithin, commaSeparated, String.toList_intercalate, Function.comp_def]

/-- The text of an array is what is written for its key. -/
theorem display_eq_written {r : Ref .array} (tree : h.IsTree (.array r)) :
    (h.displayBy numberText (.array r)).toList = (h.keyOf (.array r)).written numberText :=
  tree.displayWithin_eq_written tells tree.fits

end IsTree

/-- Two arrays built from null, booleans, numbers, strings and arrays are shown by the same text
exactly if they have the same key. In particular they then have equally many elements, and each is
of the type of its counterpart and has its key: no string can be taken for several elements, for an
array or for another scalar. -/
theorem arrays_display_alike_iff {numberText : Binary64 → String} (tells : TellsNumbers numberText)
    {h h' : Heap} {r s : Ref .array} (tree : h.IsTree (.array r)) (tree' : h'.IsTree (.array s)) :
    (h.displayBy numberText (.array r) = h'.displayBy numberText (.array s) ↔
        h.keyOf (.array r) = h'.keyOf (.array s)) ∧
      (h.displayBy numberText (.array r) = h'.displayBy numberText (.array s) →
        List.Forall₂ (fun a b => a.typeName = b.typeName ∧ h.keyOf a = h'.keyOf b) (h.items r)
          (h'.items s)) := by
  have alike : h.displayBy numberText (.array r) = h'.displayBy numberText (.array s) ↔
      h.keyOf (.array r) = h'.keyOf (.array s) := by
    rw [← String.toList_inj, tree.display_eq_written tells, tree'.display_eq_written tells]
    constructor
    · exact (tree.isTree_keyWithin tree.fits).written_inj tells
        (tree'.isTree_keyWithin tree'.fits)
    · intro same
      rw [same]
  refine ⟨alike, ?_⟩
  intro shown
  have keys := alike.1 shown
  rw [tree.keyOf_array, tree'.keyOf_array, Key.sequence.injEq, ← List.forall₂_eq_eq_eq,
    List.forall₂_map_left_iff, List.forall₂_map_right_iff, List.forall₂_iff_zip] at keys
  refine List.forall₂_iff_zip.2 ⟨keys.1, fun {a b} together => ?_⟩
  obtain ⟨held, held'⟩ := List.of_mem_zip together
  have same := keys.2 together
  exact ⟨(tree.part held).typeName_eq (tree'.part held') same, same⟩

end Heap

/-! ### Strings that look like elements -/

/-- NaN and zero by their names and all other numbers by their bits. -/
def bitChars (x : Binary64) : List Char :=
  if x = .nan then ['N', 'a', 'N']
  else if x = .zero then ['0']
  else '.' :: Nat.toDigits 10 x.bits.toNat

theorem bitChars_inj {x y : Binary64} (same : bitChars x = bitChars y) : x = y := by
  unfold bitChars at same
  split_ifs at same with nan nan' zero' zero nan' zero' nan' zero'
  · rw [nan, nan']
  · simp at same
  · simp at same
  · simp at same
  · rw [zero, zero']
  · simp at same
  · simp at same
  · simp at same
  · have digits := congrArg (Nat.ofDigitChars 10 · 0) (List.cons.inj same).2
    simp only [Nat.ofDigitChars_ten_toDigits, UInt64.toNat_inj] at digits
    exact congrArg Binary64.mk digits

/-- Writes a number as the one that keys know it by. -/
def bitText (x : Binary64) : String := String.ofList (bitChars x.normalize)

theorem tellsNumbers_bitText : TellsNumbers bitText where
  same_iff x y := by
    constructor
    · intro same
      exact bitChars_inj (String.ofList_injective same)
    · intro same
      rw [bitText, same, ← bitText]
  isWord x := by
    rw [bitText, String.toList_ofList]
    unfold bitChars
    split_ifs
    · exact .inr (.inl rfl)
    · exact .inl ⟨List.cons_ne_nil _ _, List.forall_mem_singleton.2 (.inl rfl)⟩
    · refine .inl ⟨List.cons_ne_nil _ _, ?_⟩
      intro c member
      rcases List.mem_cons.1 member with rfl | digit
      · exact .inr (.inr rfl)
      · exact .inl (Nat.isDigit_of_mem_toDigits (by decide) (by decide) digit)

namespace Heap

/-- An array of two strings, an array of one string that would look like them if it were not quoted,
and arrays that hold the first one, the second one and the first one again, NaN and a zero. -/
def misleading : Heap where
  arrays := ⟨#[#[.text "a", .text "b"], #[.text "a\", \"b"],
    #[.array ⟨0⟩, .number .nan, .number Binary64.zero.neg],
    #[.array ⟨1⟩, .number .nan, .number .zero], #[.array ⟨0⟩, .number .nan, .number .zero]]⟩

theorem misleading_isTree :
    ∀ r ∈ [(⟨2⟩ : Ref .array), ⟨3⟩, ⟨4⟩], misleading.IsTree (.array r) := by
  have first : misleading.IsTree (.array ⟨0⟩) :=
    .array (List.forall_mem_cons.2 ⟨.text _, List.forall_mem_singleton.2 (.text _)⟩)
  have second : misleading.IsTree (.array ⟨1⟩) := .array (List.forall_mem_singleton.2 (.text _))
  have numbers : ∀ x y, ∀ v ∈ [Value.number x, .number y], misleading.IsTree v := fun x y =>
    List.forall_mem_cons.2 ⟨.number x, List.forall_mem_singleton.2 (.number y)⟩
  simp only [List.forall_mem_cons, List.not_mem_nil, false_implies, implies_true, and_true]
  exact ⟨.array (List.forall_mem_cons.2 ⟨first, numbers _ _⟩),
    .array (List.forall_mem_cons.2 ⟨second, numbers _ _⟩),
    .array (List.forall_mem_cons.2 ⟨first, numbers _ _⟩)⟩

/-- Two of the arrays differ in the strings within them and are not shown alike; two differ in the
sign of a zero only and are shown alike, and they agree element by element. -/
theorem arrays_display_alike_iff_misleading :
    TellsNumbers bitText ∧ misleading.IsTree (.array ⟨2⟩) ∧ misleading.IsTree (.array ⟨3⟩) ∧
      misleading.IsTree (.array ⟨4⟩) ∧
      misleading.displayBy bitText (.array ⟨2⟩) ≠ misleading.displayBy bitText (.array ⟨3⟩) ∧
      misleading.displayBy bitText (.array ⟨2⟩) = misleading.displayBy bitText (.array ⟨4⟩) ∧
      List.Forall₂
        (fun a b => a.typeName = b.typeName ∧ misleading.keyOf a = misleading.keyOf b)
        (misleading.items ⟨2⟩) (misleading.items ⟨4⟩) := by
  have tree := misleading_isTree ⟨2⟩ (by decide)
  have tree' := misleading_isTree ⟨3⟩ (by decide)
  have tree'' := misleading_isTree ⟨4⟩ (by decide)
  have apart := (arrays_display_alike_iff tellsNumbers_bitText tree tree').1
  obtain ⟨alike, elements⟩ := arrays_display_alike_iff tellsNumbers_bitText tree tree''
  have shown := alike.2 (by decide)
  exact ⟨tellsNumbers_bitText, tree, tree', tree'', mt apart.1 (by decide), shown, elements shown⟩

end Heap

end ScriptCore
