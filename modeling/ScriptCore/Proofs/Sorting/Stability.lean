import Mathlib.Data.List.Sort
import ScriptCore.Proofs.Sorting.Comparisons

/-!
Sorting by a comparison that orders the elements.

The comparison may act on a state, but its answers are those of an order in which elements may be
equal. Elements with their marks are then ordered strictly, by what they are and, where they are
equal, by their marks. A list has just one arrangement in that order, and the sort finds it.
-/

namespace ScriptCore.Sort

open Inquiry

variable {ε σ α β : Type} {order : α → α → Ordering}

/-! ### Marked elements in order -/

/-- The first element stands before the second one: it is less, or it is equal and its mark is. -/
def Precedes (order : α → α → Ordering) (a b : α × Nat) : Prop :=
  order a.1 b.1 = .lt ∨ order a.1 b.1 = .eq ∧ a.2 < b.2

theorem precedes_of_not_greater {a b : α × Nat} (notGreater : order a.1 b.1 ≠ .gt)
    (kept : order a.1 b.1 = .eq → a.2 < b.2) : Precedes order a b := by
  cases answer : order a.1 b.1 with
  | lt => exact .inl answer
  | eq => exact .inr ⟨answer, kept answer⟩
  | gt => exact absurd answer notGreater

theorem Precedes.not_greater {a b : α × Nat} (before : Precedes order a b) :
    order a.1 b.1 ≠ .gt := by
  rcases before with less | ⟨equal, -⟩
  · simp [less]
  · simp [equal]

theorem Precedes.kept {a b : α × Nat} (before : Precedes order a b)
    (equal : order a.1 b.1 = .eq) : a.2 < b.2 := by
  rcases before with less | ⟨-, less⟩
  · cases less.symm.trans equal
  · exact less

section Ordered

variable [Std.TransCmp order] {a b c : α × Nat}

theorem Precedes.trans (before : Precedes order a b) (behind : Precedes order b c) :
    Precedes order a c := by
  rcases before with less | ⟨equal, less⟩ <;> rcases behind with less' | ⟨equal', less'⟩
  · exact .inl (Std.TransCmp.lt_trans less less')
  · exact .inl (Std.TransCmp.lt_of_lt_of_eq less equal')
  · exact .inl (Std.TransCmp.lt_of_eq_of_lt equal less')
  · exact .inr ⟨Std.TransCmp.eq_trans equal equal', less.trans less'⟩

theorem Precedes.asymm (before : Precedes order a b) : ¬ Precedes order b a := by
  intro after
  rcases before.trans after with less | ⟨-, less⟩
  · have equal : order a.1 a.1 = .eq := Std.ReflCmp.compare_self
    cases less.symm.trans equal
  · exact Nat.lt_irrefl _ less

theorem precedes_of_greater (greater : order a.1 b.1 = .gt) : Precedes order b a :=
  .inl (Std.OrientedCmp.gt_iff_lt.1 greater)

end Ordered

/-! ### Sorting -/

/-- The answers are those of the order, whatever the marks. -/
def Answers (order : α → α → Ordering) (a b : α × Nat) (answer : Ordering) : Prop :=
  answer = order a.1 b.1

section Sorting

variable [Std.TransCmp order]

theorem sink_sorted {x : α × Nat} {reversed : List (α × Nat)}
    (sorted : reversed.Pairwise fun a b => Precedes order b a)
    (below : ∀ a ∈ reversed, a.2 < x.2) :
    (sink ask x reversed).Ensures (Answers order) fun result =>
      result.Pairwise fun a b => Precedes order b a := by
  induction reversed with
  | nil => exact List.pairwise_singleton _ x
  | cons last before ih =>
    obtain ⟨latest, sorted⟩ := List.pairwise_cons.1 sorted
    refine .ask_greater (fun greater => ?_) fun answer notGreater answers => ?_
    · have rest := (ih sorted fun a mem => below a (List.mem_cons_of_mem _ mem)).and
        (sink_perm x before).ensures
      refine rest.bind fun sunk both => List.pairwise_cons.2 ⟨fun a mem => ?_, both.1⟩
      rcases List.mem_cons.1 (both.2.mem_iff.1 mem) with rfl | mem
      · exact precedes_of_greater greater.symm
      · exact latest a mem
    · have next : Precedes order last x :=
        precedes_of_not_greater (answers ▸ notGreater) fun _ => below last List.mem_cons_self
      refine List.pairwise_cons.2 ⟨List.forall_mem_cons.2 ⟨next, fun a mem => ?_⟩,
        List.pairwise_cons.2 ⟨latest, sorted⟩⟩
      exact (latest a mem).trans next

theorem sinkAll_sorted {reversed xs : List (α × Nat)}
    (sorted : reversed.Pairwise fun a b => Precedes order b a) (marked : Marked xs)
    (below : ∀ a ∈ reversed, ∀ b ∈ xs, a.2 < b.2) :
    (sinkAll ask reversed xs).Ensures (Answers order) fun result =>
      result.Pairwise fun a b => Precedes order b a := by
  induction xs generalizing reversed with
  | nil => exact sorted
  | cons x rest ih =>
    have sunk := (sink_sorted sorted fun a mem => below a mem x List.mem_cons_self).and
      (sink_perm x reversed).ensures
    exact sunk.bind fun sunk both =>
      ih both.1 (List.pairwise_cons.1 marked).2 (below_of_sunk marked below both.2)

theorem insertionSort_sorted {xs : List (α × Nat)} (marked : Marked xs) :
    (insertionSort ask xs).Ensures (Answers order) fun result =>
      result.Pairwise (Precedes order) :=
  (sinkAll_sorted .nil marked nofun).bind fun _ sorted => List.pairwise_reverse.2 sorted

theorem merge_sorted {xs ys : List (α × Nat)} (sorted : xs.Pairwise (Precedes order))
    (sorted' : ys.Pairwise (Precedes order)) (apart : ∀ a ∈ xs, ∀ b ∈ ys, a.2 < b.2) :
    (merge ask xs ys).Ensures (Answers order) fun result => result.Pairwise (Precedes order) := by
  induction xs, ys using merge.induct with
  | case1 ys =>
    simp only [merge]
    exact sorted'
  | case2 xs notNil =>
    simp only [merge]
    exact sorted
  | case3 x xs y ys takeRight takeLeft =>
    obtain ⟨least, rest⟩ := List.pairwise_cons.1 sorted
    obtain ⟨least', rest'⟩ := List.pairwise_cons.1 sorted'
    simp only [merge]
    refine .ask_greater (fun greater => ?_) fun answer notGreater answers => ?_
    · have next : Precedes order y x := precedes_of_greater greater.symm
      have merged := (takeRight sorted rest' fun a mem b mem' =>
        apart a mem b (List.mem_cons_of_mem _ mem')).and (merge_perm (x :: xs) ys).ensures
      refine merged.bind fun rest both => List.pairwise_cons.2 ⟨fun a mem => ?_, both.1⟩
      rcases List.mem_append.1 (both.2.mem_iff.1 mem) with mem | mem
      · rcases List.mem_cons.1 mem with rfl | mem
        · exact next
        · exact next.trans (least a mem)
      · exact least' a mem
    · have next : Precedes order x y := precedes_of_not_greater (answers ▸ notGreater)
        fun _ => apart x List.mem_cons_self y List.mem_cons_self
      have merged := (takeLeft rest sorted' fun a mem =>
        apart a (List.mem_cons_of_mem _ mem)).and (merge_perm xs (y :: ys)).ensures
      refine merged.bind fun rest both => List.pairwise_cons.2 ⟨fun a mem => ?_, both.1⟩
      rcases List.mem_append.1 (both.2.mem_iff.1 mem) with mem | mem
      · exact least a mem
      · rcases List.mem_cons.1 mem with rfl | mem
        · exact next
        · exact next.trans (least' a mem)

theorem stableSort_sorted {xs : List (α × Nat)} (marked : Marked xs) :
    (stableSort ask xs).Ensures (Answers order) fun result =>
      result.Pairwise (Precedes order) := by
  induction xs using halving_induction with
  | short xs short =>
    rw [stableSort_of_short _ short]
    exact insertionSort_sorted marked
  | long before behind halves left right =>
    rw [stableSort_of_halves _ halves]
    obtain ⟨marked, marked', apart⟩ := List.pairwise_append.1 marked
    refine ((left marked).and (stableSort_perm before).ensures).bind fun ys sorted =>
      ((right marked').and (stableSort_perm behind).ensures).bind fun zs sorted' => ?_
    exact merge_sorted sorted.1 sorted'.1 fun a mem b mem' =>
      apart a (sorted.2.mem_iff.1 mem) b (sorted'.2.mem_iff.1 mem')

end Sorting

/-! ### Stable arrangements -/

/-- An arrangement of a list in which no element is greater than the next one, and any two that are
equal stand as they stood in the list. The marks are the places in the list. -/
def StableArrangement (order : α → α → Ordering) (xs ys : List α) : Prop :=
  ∃ marked : List (α × Nat), marked.map Prod.fst = ys ∧ marked.Perm xs.zipIdx ∧
    ys.IsChain (fun a b => order a b ≠ .gt) ∧
    marked.Pairwise fun a b => order a.1 b.1 = .eq → a.2 < b.2

theorem stableArrangement_of_sorted {xs : List α} {marked : List (α × Nat)}
    (perm : marked.Perm xs.zipIdx) (sorted : marked.Pairwise (Precedes order)) :
    StableArrangement order xs (marked.map Prod.fst) := by
  refine ⟨marked, rfl, perm, ?_, sorted.imp Precedes.kept⟩
  exact (List.pairwise_map.2 (sorted.imp Precedes.not_greater)).isChain

/-- Next to next or pair by pair, it comes to the same: nothing greater stands before. -/
theorem StableArrangement.sorted [Std.TransCmp order] {xs ys : List α}
    (stable : StableArrangement order xs ys) :
    ∃ marked : List (α × Nat), marked.map Prod.fst = ys ∧ marked.Perm xs.zipIdx ∧
      marked.Pairwise (Precedes order) := by
  obtain ⟨marked, rfl, perm, ascending, kept⟩ := stable
  -- Among neighbours only order is asked for; transitivity carries it to all pairs.
  have : Trans (fun a b => order a b ≠ .gt) (fun a b => order a b ≠ .gt)
      fun a b => order a b ≠ .gt := ⟨fun first second => Ordering.isLE_iff_ne_gt.1
    (Std.TransCmp.isLE_trans (Ordering.isLE_iff_ne_gt.2 first) (Ordering.isLE_iff_ne_gt.2 second))⟩
  have notGreater := List.pairwise_map.1 (List.isChain_iff_pairwise.1 ascending)
  refine ⟨marked, rfl, perm, (notGreater.and kept).imp fun both => ?_⟩
  exact precedes_of_not_greater both.1 both.2

/-- A list has at most one stable arrangement. -/
theorem StableArrangement.unique [Std.TransCmp order] {xs ys zs : List α}
    (stable : StableArrangement order xs ys) (stable' : StableArrangement order xs zs) :
    ys = zs := by
  obtain ⟨marked, rfl, perm, sorted⟩ := stable.sorted
  obtain ⟨marked', rfl, perm', sorted'⟩ := stable'.sorted
  refine congrArg (List.map Prod.fst) (List.Perm.eq_of_pairwise ?_ sorted sorted'
    (perm.trans perm'.symm))
  exact fun a b _ _ before after => absurd after before.asymm

/-! ### The sort -/

/-- A comparison that never fails takes an inquiry to a leaf that its answers ensure. -/
theorem run_of_answers {expected : α → α → Ordering → Prop} {good : β → Prop}
    {cmp : α → α → ExceptT ε (StateM σ) Ordering}
    (answers : ∀ x y s, ∃ answer, (cmp x y s).1 = .ok answer ∧ expected x y answer)
    {p : Inquiry α β} (ensures : p.Ensures expected good) (s : σ) :
    ∃ result, (p.run cmp s).1 = .ok result ∧ good result := by
  induction p generalizing s with
  | ended result => exact ⟨result, rfl, ensures⟩
  | asks x y branches ih =>
    obtain ⟨answer, called, expects⟩ := answers x y s
    rw [run_asks_of_ok (Prod.ext called rfl)]
    exact ih answer (ensures answer expects) _

section Stable

variable {cmp : α → α → ExceptT ε (StateM σ) Ordering}
  (answers : ∀ x y s, (cmp x y s).1 = .ok (order x y))

include answers

theorem stableArrangement_of_follows {xs : List α} {p : Inquiry (α × Nat) (List (α × Nat))}
    {sorting : ExceptT ε (StateM σ) (List α)} (follows : Follows Prod.fst cmp p sorting)
    (perm : p.Always fun result => result.Perm xs.zipIdx)
    (sorted : p.Ensures (Answers order) fun result => result.Pairwise (Precedes order)) (s : σ) :
    ∃ ys, (sorting s).1 = .ok ys ∧ StableArrangement order xs ys := by
  have marked : ∀ (a b : α × Nat) (s : σ), ∃ answer, (cmp a.1 b.1 s).1 = .ok answer ∧
      Answers order a b answer := fun a b s => ⟨_, answers a.1 b.1 s, rfl⟩
  obtain ⟨result, gives, perm, sorted⟩ := run_of_answers marked (perm.ensures.and sorted) s
  refine ⟨result.map Prod.fst, ?_, stableArrangement_of_sorted perm sorted⟩
  rw [← follows, map_at, gives]
  rfl

/-- Sorting by a comparison that always succeeds and whose answers reverse with its arguments, while
being not greater is transitive.

The sort gives a list. It is a rearrangement in which no element is greater than the next one and
elements that are equal keep their order, and there is no other such rearrangement. Sorting the
whole list by insertion gives the same. -/
theorem stableSort_stable [Std.TransCmp order] (xs : List α) (s : σ) :
    ∃ ys, (stableSort cmp xs s).1 = .ok ys ∧
      ys.Perm xs ∧ StableArrangement order xs ys ∧
      (∀ zs, StableArrangement order xs zs → zs = ys) ∧
      (insertionSort cmp xs s).1 = .ok ys := by
  have marks : xs.zipIdx.map Prod.fst = xs := List.zipIdx_map_fst 0 xs
  have halving := follows_stableSort Prod.fst cmp xs.zipIdx
  have inserting := follows_insertionSort Prod.fst cmp xs.zipIdx
  rw [marks] at halving inserting
  obtain ⟨ys, gives, stable⟩ := stableArrangement_of_follows answers halving
    (stableSort_perm xs.zipIdx) (stableSort_sorted (marked_zipIdx xs)) s
  obtain ⟨zs, gives', stable'⟩ := stableArrangement_of_follows answers inserting
    (insertionSort_perm xs.zipIdx) (insertionSort_sorted (marked_zipIdx xs)) s
  have perm : ys.Perm xs := by
    obtain ⟨marked, rfl, perm, -⟩ := stable
    exact (perm.map Prod.fst).trans (.of_eq marks)
  exact ⟨ys, gives, perm, stable, fun _ other => other.unique stable,
    stable'.unique stable ▸ gives'⟩

end Stable

/-- Compares the halves of two numbers and counts its calls. -/
def countingHalves (a b : Nat) : ExceptT String (StateM Nat) Ordering := fun count =>
  (.ok (compareOn (· / 2) a b), count + 1)

/-- Ten numbers, which are sorted by their halves in two parts of five. -/
theorem stableSort_stable_halves :
    (∀ x y s, (countingHalves x y s).1 = .ok (compareOn (· / 2) x y)) ∧
      (stableSort countingHalves [9, 3, 2, 7, 0, 6, 1, 8, 5, 4] 0).1 =
        .ok [0, 1, 3, 2, 5, 4, 7, 6, 9, 8] := by
  have answers : ∀ x y s, (countingHalves x y s).1 = .ok (compareOn (· / 2) x y) :=
    fun _ _ _ => rfl
  have arrangement : StableArrangement (compareOn (· / 2)) [9, 3, 2, 7, 0, 6, 1, 8, 5, 4]
      [0, 1, 3, 2, 5, 4, 7, 6, 9, 8] :=
    ⟨[(0, 4), (1, 6), (3, 1), (2, 2), (5, 8), (4, 9), (7, 3), (6, 5), (9, 0), (8, 7)],
      rfl, by decide, by decide, by decide⟩
  obtain ⟨ys, gives, -, -, only, -⟩ :=
    stableSort_stable answers [9, 3, 2, 7, 0, 6, 1, 8, 5, 4] 0
  exact ⟨answers, only _ arrangement ▸ gives⟩

end ScriptCore.Sort
