import Mathlib.Algebra.BigOperators.Intervals
import Mathlib.Data.List.Nodup
import ScriptCore.Proofs.Sorting.Inquiries

/-!
The comparisons that a sort makes.

Nothing is asked of the comparison here: it may contradict itself, act on a state and fail. The
elements are marked with their places in the list, and the sort keeps a record of its calls.
-/

namespace ScriptCore

/-- A call of a comparison: the two it was given, and its answer. -/
structure Comparison (ε α : Type) where
  first : α
  second : α
  answer : Except ε Ordering

/-- The two that are compared. -/
def Comparison.pair {ε α : Type} (call : Comparison ε α) : α × α := (call.first, call.second)

/-! ### Walks -/

/-- The calls made from the root of an inquiry to where it ends, and how it ends: at a leaf, or with
a call that fails. -/
inductive Inquiry.Walk {ε α β : Type} :
    Inquiry α β → List (Comparison ε α) → Except ε β → Prop
  | ended (result : β) : Walk (.ended result) [] (.ok result)
  | failed (x y : α) (branches : Ordering → Inquiry α β) (e : ε) :
    Walk (.asks x y branches) [⟨x, y, .error e⟩] (.error e)
  | answered {x y : α} {branches : Ordering → Inquiry α β} {order : Ordering}
      {calls : List (Comparison ε α)} {result : Except ε β}
      (rest : Walk (branches order) calls result) :
    Walk (.asks x y branches) (⟨x, y, .ok order⟩ :: calls) result

namespace Inquiry.Walk

variable {ε α β : Type} {p : Inquiry α β} {calls : List (Comparison ε α)} {result : Except ε β}

/-- Only pairs that are allowed are compared, and none of them twice. -/
theorem pairs_of_within (walk : p.Walk calls result) {allowed : α → α → Prop}
    (within : p.Within allowed) :
    (∀ call ∈ calls, allowed call.first call.second) ∧
      (calls.map Comparison.pair).Nodup := by
  induction walk generalizing allowed with
  | ended result => exact ⟨nofun, List.nodup_nil⟩
  | failed x y branches e => simpa using within.1
  | @answered x y branches order calls result rest ih =>
    obtain ⟨here, later⟩ := within
    obtain ⟨allows, once⟩ := ih (later order)
    refine ⟨List.forall_mem_cons.2 ⟨here, fun call mem => (allows call mem).1⟩, ?_⟩
    refine List.nodup_cons.2 ⟨fun again => ?_, once⟩
    obtain ⟨call, mem, same⟩ := List.mem_map.1 again
    exact (allows call mem).2 same

/-- A leaf that is reached is as the answers on the way ensure. -/
theorem good_of_ensures {leaf : β} (walk : p.Walk calls (.ok leaf : Except ε β))
    {expected : α → α → Ordering → Prop} {good : β → Prop} (ensures : p.Ensures expected good)
    (answers : ∀ call ∈ calls, ∀ order, call.answer = .ok order →
      expected call.first call.second order) : good leaf := by
  generalize reached : (Except.ok leaf : Except ε β) = result at walk
  induction walk with
  | ended result =>
    cases reached
    exact ensures
  | failed x y branches e => cases reached
  | answered rest ih =>
    obtain ⟨here, later⟩ := List.forall_mem_cons.1 answers
    exact ih (ensures _ (here _ rfl)) later reached

theorem answered_of_ok {leaf : β} (walk : p.Walk calls (.ok leaf : Except ε β)) :
    ∀ call ∈ calls, ∃ order, call.answer = .ok order := by
  generalize reached : (Except.ok leaf : Except ε β) = result at walk
  induction walk with
  | ended result => exact nofun
  | failed x y branches e => cases reached
  | answered rest ih => exact List.forall_mem_cons.2 ⟨⟨_, rfl⟩, ih reached⟩

/-- A walk that fails ends with the first call that does. -/
theorem last_of_error {e : ε} (walk : p.Walk calls (.error e : Except ε β)) :
    ∃ done last, calls = done ++ [last] ∧ last.answer = .error e ∧
      ∀ call ∈ done, ∃ order, call.answer = .ok order := by
  generalize stopped : (Except.error e : Except ε β) = result at walk
  induction walk with
  | ended result => cases stopped
  | failed x y branches e' =>
    cases stopped
    exact ⟨[], _, rfl, rfl, nofun⟩
  | answered rest ih =>
    obtain ⟨done, last, split, fails, answered⟩ := ih stopped
    exact ⟨_ :: done, last, congrArg _ split, fails,
      List.forall_mem_cons.2 ⟨⟨_, rfl⟩, answered⟩⟩

end Inquiry.Walk

end ScriptCore

namespace ScriptCore.Sort

open Inquiry

variable {ε σ α β : Type}

/-! ### Keeping a record -/

theorem map_at (f : α → β) (run : ExceptT ε (StateM σ) α) (s : σ) :
    (f <$> run) s = ((run s).1.map f, (run s).2) := by
  simp only [Functor.map, ExceptT.map, ExceptT.mk, bind, StateT.bind]
  cases run s with
  | mk result s' => cases result <;> rfl

/-- Compares marked elements and keeps a record of the calls, a call that fails included. -/
def recording (cmp : α → α → ExceptT ε (StateM σ) Ordering) (a b : α × Nat) :
    ExceptT ε (StateM (σ × List (Comparison ε (α × Nat)))) Ordering := fun state =>
  let called := cmp a.1 b.1 state.1
  (called.1, called.2, state.2 ++ [⟨a, b, called.1⟩])

/-- The sort of a list with its places marked, from a state and an empty record. -/
def recorded (cmp : α → α → ExceptT ε (StateM σ) Ordering) (xs : List α) (s : σ) :
    Except ε (List (α × Nat)) × σ × List (Comparison ε (α × Nat)) :=
  stableSort (recording cmp) xs.zipIdx (s, [])

/-- The calls that the sort of a list makes from a state. -/
def calls (cmp : α → α → ExceptT ε (StateM σ) Ordering) (xs : List α) (s : σ) :
    List (Comparison ε (α × Nat)) := (recorded cmp xs s).2.2

section Running

variable {cmp : α → α → ExceptT ε (StateM σ) Ordering} {x y : α} {s s' : σ}

theorem run_asks_of_ok {order : Ordering} (called : cmp x y s = (.ok order, s'))
    (branches : Ordering → Inquiry α β) :
    (asks x y branches).run cmp s = (branches order).run cmp s' := by
  simp only [Inquiry.run, bind, ExceptT.bind, ExceptT.mk, StateT.bind, ExceptT.bindCont]
  rw [called]

theorem run_asks_of_error {e : ε} (called : cmp x y s = (.error e, s'))
    (branches : Ordering → Inquiry α β) : (asks x y branches).run cmp s = (.error e, s') := by
  simp only [Inquiry.run, bind, ExceptT.bind, ExceptT.mk, StateT.bind, ExceptT.bindCont]
  rw [called]
  rfl

end Running

/-- Keeping a record changes nothing else; what is recorded is the walk. -/
theorem run_recording (cmp : α → α → ExceptT ε (StateM σ) Ordering) (p : Inquiry (α × Nat) β)
    (s : σ) (record : List (Comparison ε (α × Nat))) :
    ∃ calls result s', p.run (recording cmp) (s, record) = (result, s', record ++ calls) ∧
      p.run (fun a b => cmp a.1 b.1) s = (result, s') ∧ p.Walk calls result := by
  let unmarked : α × Nat → α × Nat → ExceptT ε (StateM σ) Ordering := fun a b => cmp a.1 b.1
  induction p generalizing s record with
  | ended result => exact ⟨[], .ok result, s, by rw [List.append_nil]; rfl, rfl, .ended result⟩
  | asks x y branches ih =>
    cases answered : unmarked x y s with
    | mk answer s' =>
      have noted : recording cmp x y (s, record) = (answer, s', record ++ [⟨x, y, answer⟩]) := by
        rw [recording, show cmp x.1 y.1 s = (answer, s') from answered]
      cases answer with
      | error e =>
        exact ⟨_, _, s', run_asks_of_error noted branches, run_asks_of_error answered branches,
          .failed x y branches e⟩
      | ok order =>
        obtain ⟨calls, result, s'', recorded, unrecorded, walk⟩ :=
          ih order s' (record ++ [⟨x, y, .ok order⟩])
        refine ⟨_, result, s'', ?_, ?_, .answered walk⟩
        · rw [run_asks_of_ok noted, recorded, List.append_assoc, List.singleton_append]
        · rw [run_asks_of_ok answered, unrecorded]

/-! ### Which pairs are compared -/

section Pairs

variable {α : Type}

theorem sink_perm (x : α) (reversed : List α) :
    (sink ask x reversed).Always fun result => result.Perm (x :: reversed) := by
  induction reversed with
  | nil => exact List.Perm.refl [x]
  | cons last before ih =>
    refine .ask_greater (fun _ => ?_) fun _ _ _ => List.Perm.refl (x :: last :: before)
    exact ih.bind fun rest perm => (perm.cons last).trans (.swap x last before)

theorem sinkAll_perm (reversed xs : List α) :
    (sinkAll ask reversed xs).Always fun result => result.Perm (reversed ++ xs) := by
  induction xs generalizing reversed with
  | nil =>
    rw [List.append_nil]
    exact List.Perm.refl reversed
  | cons x rest ih =>
    refine (sink_perm x reversed).bind fun sunk perm => (ih sunk).mono fun result all => ?_
    exact all.trans ((perm.append_right rest).trans List.perm_middle.symm)

theorem insertionSort_perm (xs : List α) :
    (insertionSort ask xs).Always fun result => result.Perm xs :=
  (sinkAll_perm [] xs).bind fun reversed perm => (List.reverse_perm reversed).trans perm

theorem merge_perm (xs ys : List α) :
    (merge ask xs ys).Always fun result => result.Perm (xs ++ ys) := by
  induction xs, ys using merge.induct with
  | case1 ys =>
    simp only [merge]
    exact List.Perm.refl ys
  | case2 xs notNil =>
    simp only [merge, List.append_nil]
    exact List.Perm.refl xs
  | case3 x xs y ys takeRight takeLeft =>
    simp only [merge]
    refine .ask_greater (fun _ => ?_) fun _ _ _ => takeLeft.bind fun rest perm => perm.cons x
    exact takeRight.bind fun rest perm => (perm.cons y).trans List.perm_middle.symm

theorem stableSort_perm (xs : List α) :
    (stableSort ask xs).Always fun result => result.Perm xs := by
  induction xs using halving_induction with
  | short xs short =>
    rw [stableSort_of_short _ short]
    exact insertionSort_perm xs
  | long before behind halves left right =>
    rw [stableSort_of_halves _ halves]
    exact left.bind fun ys perm => right.bind fun zs perm' =>
      (merge_perm ys zs).mono fun result all => all.trans (perm.append perm')

/-- A sort that comes to an end has rearranged its elements, whatever was decided. -/
theorem perm_of_stableSort {decide : α → α → Option Ordering} {xs sorted : List α}
    (gives : stableSort decide xs = some sorted) : sorted.Perm xs := by
  rw [← run_stableSort] at gives
  exact (stableSort_perm xs).of_run gives

end Pairs

/-- The marks of a list increase. -/
def Marked (xs : List (α × Nat)) : Prop := xs.Pairwise fun a b => a.2 < b.2

theorem Marked.nodup {xs : List (α × Nat)} (marked : Marked xs) : xs.Nodup :=
  List.Pairwise.imp (fun less => ne_of_apply_ne Prod.snd (Nat.ne_of_lt less)) marked

theorem marked_zipIdx (xs : List α) : Marked xs.zipIdx := by
  rw [Marked, ← List.pairwise_map, List.zipIdx_map_snd]
  exact List.pairwise_lt_range'

theorem within_sink (x : α) {reversed : List α} (once : reversed.Nodup) :
    (sink ask x reversed).Within fun a b => a ∈ reversed ∧ b = x := by
  induction reversed with
  | nil => trivial
  | cons last before ih =>
    obtain ⟨fresh, once⟩ := List.nodup_cons.1 once
    refine .ask_greater ⟨List.mem_cons_self, rfl⟩ ?_ trivial
    refine ((ih once).then_pure _).mono fun a b allowed =>
      ⟨⟨List.mem_cons_of_mem _ allowed.1, allowed.2⟩, fun same => ?_⟩
    obtain ⟨rfl, -⟩ := Prod.mk.inj same
    exact fresh allowed.1

/-- An element that has sunk stands below the rest by its mark, as those before it do. -/
theorem below_of_sunk {x : α × Nat} {reversed rest sunk : List (α × Nat)}
    (marked : Marked (x :: rest)) (below : ∀ a ∈ reversed, ∀ b ∈ x :: rest, a.2 < b.2)
    (perm : sunk.Perm (x :: reversed)) : ∀ a ∈ sunk, ∀ b ∈ rest, a.2 < b.2 := by
  obtain ⟨least, -⟩ := List.pairwise_cons.1 marked
  intro a mem b mem'
  rcases List.mem_cons.1 (perm.mem_iff.1 mem) with rfl | mem
  · exact least b mem'
  · exact below a mem b (List.mem_cons_of_mem _ mem')

theorem within_sinkAll {reversed xs : List (α × Nat)} (once : reversed.Nodup)
    (marked : Marked xs) (below : ∀ a ∈ reversed, ∀ b ∈ xs, a.2 < b.2) :
    (sinkAll ask reversed xs).Within fun a b =>
      (a ∈ reversed ∨ a ∈ xs) ∧ b ∈ xs ∧ a.2 < b.2 := by
  induction xs generalizing reversed with
  | nil => trivial
  | cons x rest ih =>
    obtain ⟨least, later⟩ := List.pairwise_cons.1 marked
    have fresh : x ∉ reversed := fun mem => Nat.lt_irrefl _ (below x mem x List.mem_cons_self)
    have others : ∀ sunk : List (α × Nat), sunk.Perm (x :: reversed) →
        (sinkAll ask sunk rest).Within fun a b =>
          (a ∈ x :: reversed ∨ a ∈ rest) ∧ b ∈ rest ∧ a.2 < b.2 := by
      intro sunk perm
      have once' : sunk.Nodup := perm.nodup_iff.2 (List.nodup_cons.2 ⟨fresh, once⟩)
      refine (ih once' later (below_of_sunk marked below perm)).mono ?_
      exact fun a b allowed => ⟨allowed.1.imp_left perm.mem_iff.1, allowed.2⟩
    refine ((within_sink x once).bind (sink_perm x reversed) others ?_).mono ?_
    · -- An element is the second of the two only while it sinks itself.
      rintro a b ⟨-, rfl⟩ ⟨-, mem, -⟩
      exact Nat.lt_irrefl _ (least b mem)
    · rintro a b (⟨mem, rfl⟩ | ⟨mem, mem', less⟩)
      · exact ⟨.inl mem, List.mem_cons_self, below a mem b List.mem_cons_self⟩
      · refine ⟨?_, List.mem_cons_of_mem _ mem', less⟩
        rw [List.mem_cons] at mem ⊢
        tauto

theorem within_insertionSort {xs : List (α × Nat)} (marked : Marked xs) :
    (insertionSort ask xs).Within fun a b => a ∈ xs ∧ b ∈ xs ∧ a.2 < b.2 := by
  refine ((within_sinkAll List.nodup_nil marked nofun).then_pure _).mono fun a b allowed => ?_
  exact ⟨allowed.1.resolve_left List.not_mem_nil, allowed.2⟩

theorem within_merge {xs ys : List α} (once : xs.Nodup) (once' : ys.Nodup) :
    (merge ask xs ys).Within fun a b => a ∈ xs ∧ b ∈ ys := by
  induction xs, ys using merge.induct with
  | case1 ys =>
    simp only [merge]
    trivial
  | case2 xs notNil =>
    simp only [merge]
    trivial
  | case3 x xs y ys takeRight takeLeft =>
    obtain ⟨fresh, rest⟩ := List.nodup_cons.1 once
    obtain ⟨fresh', rest'⟩ := List.nodup_cons.1 once'
    simp only [merge]
    refine .ask_greater ⟨List.mem_cons_self, List.mem_cons_self⟩ ?_ ?_
    · refine ((takeRight once rest').then_pure _).mono fun a b allowed =>
        ⟨⟨allowed.1, List.mem_cons_of_mem _ allowed.2⟩, fun same => ?_⟩
      obtain ⟨-, rfl⟩ := Prod.mk.inj same
      exact fresh' allowed.2
    · refine ((takeLeft rest once').then_pure _).mono fun a b allowed =>
        ⟨⟨List.mem_cons_of_mem _ allowed.1, allowed.2⟩, fun same => ?_⟩
      obtain ⟨rfl, -⟩ := Prod.mk.inj same
      exact fresh allowed.1

/-- An element is compared with later ones only as the first of the two, and with each of them at
most once. -/
theorem within_stableSort {xs : List (α × Nat)} (marked : Marked xs) :
    (stableSort ask xs).Within fun a b => a ∈ xs ∧ b ∈ xs ∧ a.2 < b.2 := by
  induction xs using halving_induction with
  | short xs short =>
    rw [stableSort_of_short _ short]
    exact within_insertionSort marked
  | long before behind halves left right =>
    rw [stableSort_of_halves _ halves]
    obtain ⟨marked, marked', apart⟩ := List.pairwise_append.1 marked
    have disjoint : ∀ a, a ∈ before → a ∉ behind := fun a mem mem' =>
      Nat.lt_irrefl _ (apart a mem a mem')
    have merging : ∀ ys : List (α × Nat), ys.Perm before →
        (stableSort ask behind >>= merge ask ys).Within fun a b =>
          (a ∈ behind ∧ b ∈ behind ∧ a.2 < b.2) ∨ (a ∈ before ∧ b ∈ behind) := by
      intro ys perm
      refine (right marked').bind (stableSort_perm behind) (fun zs perm' => ?_) ?_
      · refine (within_merge (perm.nodup_iff.2 marked.nodup)
          (perm'.nodup_iff.2 marked'.nodup)).mono fun a b allowed => ?_
        exact ⟨perm.mem_iff.1 allowed.1, perm'.mem_iff.1 allowed.2⟩
      · exact fun a b allowed other => disjoint a other.1 allowed.1
    refine ((left marked).bind (stableSort_perm before) merging ?_).mono ?_
    · rintro a b ⟨-, mem, -⟩ (⟨-, mem', -⟩ | ⟨-, mem'⟩) <;> exact disjoint b mem mem'
    · simp only [List.mem_append]
      rintro a b (⟨mem, mem', less⟩ | ⟨mem, mem', less⟩ | ⟨mem, mem'⟩)
      · exact ⟨.inl mem, .inl mem', less⟩
      · exact ⟨.inr mem, .inr mem', less⟩
      · exact ⟨.inl mem, .inr mem', apart a mem b mem'⟩

/-! ### When nothing is greater -/

section Kept

variable {α : Type}

/-- The answers that move no element. -/
def NeverGreater (_ _ : α) (order : Ordering) : Prop := order ≠ .gt

theorem sink_kept (x : α) (reversed : List α) :
    (sink ask x reversed).Ensures NeverGreater fun result => result = x :: reversed := by
  cases reversed with
  | nil => rfl
  | cons last before => exact .ask_greater (fun greater => absurd rfl greater) fun _ _ _ => rfl

theorem sinkAll_kept (reversed xs : List α) :
    (sinkAll ask reversed xs).Ensures NeverGreater
      fun result => result = xs.reverse ++ reversed := by
  induction xs generalizing reversed with
  | nil => rfl
  | cons x rest ih =>
    refine (sink_kept x reversed).bind fun sunk same => ?_
    rw [same, List.reverse_cons, List.append_assoc]
    exact ih (x :: reversed)

theorem insertionSort_kept (xs : List α) :
    (insertionSort ask xs).Ensures NeverGreater fun result => result = xs := by
  refine (sinkAll_kept [] xs).bind fun reversed same => ?_
  rw [same, List.append_nil, List.reverse_reverse]
  rfl

theorem merge_kept (xs ys : List α) :
    (merge ask xs ys).Ensures NeverGreater fun result => result = xs ++ ys := by
  induction xs with
  | nil =>
    simp only [merge]
    rfl
  | cons x xs ih =>
    cases ys with
    | nil =>
      simp only [merge, List.append_nil]
      rfl
    | cons y ys =>
      simp only [merge]
      refine .ask_greater (fun greater => absurd rfl greater) fun _ _ _ => ?_
      exact ih.bind fun rest same => congrArg (x :: ·) same

theorem stableSort_kept (xs : List α) :
    (stableSort ask xs).Ensures NeverGreater fun result => result = xs := by
  induction xs using halving_induction with
  | short xs short =>
    rw [stableSort_of_short _ short]
    exact insertionSort_kept xs
  | long before behind halves left right =>
    rw [stableSort_of_halves _ halves]
    refine left.bind fun ys same => right.bind fun zs same' => ?_
    rw [same, same']
    exact merge_kept before behind

end Kept

/-! ### The calls of a sort -/

/-- The places of the two that a call compares. -/
def places (call : Comparison ε (α × Nat)) : Nat × Nat := (call.first.2, call.second.2)

/-- There are so many pairs of places below a bound, the earlier place first. -/
theorem length_le_of_pairs {pairs : List (Nat × Nat)} {n : Nat} (once : pairs.Nodup)
    (forward : ∀ pair ∈ pairs, pair.1 < pair.2 ∧ pair.2 < n) :
    pairs.length ≤ n * (n - 1) / 2 := by
  have among : pairs ⊆ (List.range n).flatMap fun later => (List.range later).map (·, later) := by
    intro pair mem
    obtain ⟨less, bound⟩ := forward pair mem
    exact List.mem_flatMap.2 ⟨pair.2, List.mem_range.2 bound,
      List.mem_map.2 ⟨pair.1, List.mem_range.2 less, rfl⟩⟩
  refine (once.subperm among).length_le.trans_eq ?_
  rw [List.length_flatMap, ← Finset.sum_range_id]
  simp only [List.length_map, List.length_range]
  rfl

theorem nodup_places {xs : List α} {calls : List (Comparison ε (α × Nat))}
    (once : (calls.map Comparison.pair).Nodup)
    (members : ∀ call ∈ calls, call.first ∈ xs.zipIdx ∧ call.second ∈ xs.zipIdx ∧
      call.first.2 < call.second.2) : (calls.map places).Nodup := by
  have marks : ∀ a ∈ xs.zipIdx, ∀ b ∈ xs.zipIdx, a.2 = b.2 → a = b := by
    intro a mem b mem' same
    rw [List.mem_zipIdx_iff_getElem?] at mem mem'
    rw [same, mem'] at mem
    exact Prod.ext (Option.some.inj mem).symm same
  have split : calls.map places =
      (calls.map Comparison.pair).map fun pair => (pair.1.2, pair.2.2) := by
    rw [List.map_map]
    rfl
  rw [split]
  refine once.map_on (List.forall_mem_map.2 fun call mem => List.forall_mem_map.2 ?_)
  intro call' mem' same
  obtain ⟨first, second, -⟩ := members call mem
  obtain ⟨first', second', -⟩ := members call' mem'
  obtain ⟨same, same'⟩ := Prod.mk.inj same
  exact Prod.ext (marks _ first _ first' same) (marks _ second _ second' same')

/-- The sort of a list takes the walk that its calls make. -/
theorem exists_walk (cmp : α → α → ExceptT ε (StateM σ) Ordering) (xs : List α) (s : σ) :
    ∃ result s', recorded cmp xs s = (result, s', calls cmp xs s) ∧
      stableSort cmp xs s = (result.map (List.map Prod.fst), s') ∧
      (stableSort ask xs.zipIdx).Walk (calls cmp xs s) result := by
  obtain ⟨made, result, s', noted, unnoted, walk⟩ :=
    run_recording cmp (stableSort ask xs.zipIdx) s []
  have keeps : recorded cmp xs s = (result, s', made) := by
    have follows := follows_stableSort id (recording cmp) xs.zipIdx
    rw [Follows, List.map_id_fun, id_map] at follows
    exact (congrFun follows (s, [])).symm.trans noted
  have drops : stableSort cmp xs s = (result.map (List.map Prod.fst), s') := by
    have follows := follows_stableSort Prod.fst cmp xs.zipIdx
    rw [Follows, List.zipIdx_map_fst] at follows
    rw [← follows, map_at, unnoted]
  have same : calls cmp xs s = made := by rw [calls, keeps]
  exact ⟨result, s', same ▸ keeps, drops, same ▸ walk⟩

/-- Sorting by a comparison that may answer anything, act on a state and fail.

The sort is the one that keeps a record, without the marks and the record, so the record tells all
the calls of the comparison. Each is about two elements of the list, the one that stands earlier
first, no two are about the same places, and so there are at most as many as pairs of places. If the
sort gives a list, it is a rearrangement, and no call failed. If it fails, it fails as the last call
does, the only one that failed. If all answers are that the earlier element is not greater, it gives
the list as it was. -/
theorem stableSort_calls (cmp : α → α → ExceptT ε (StateM σ) Ordering) (xs : List α) (s : σ) :
    stableSort cmp xs s =
        ((recorded cmp xs s).1.map (List.map Prod.fst), (recorded cmp xs s).2.1) ∧
      (∀ call ∈ calls cmp xs s, call.first ∈ xs.zipIdx ∧ call.second ∈ xs.zipIdx ∧
        call.first.2 < call.second.2) ∧
      ((calls cmp xs s).map places).Nodup ∧
      (calls cmp xs s).length ≤ xs.length * (xs.length - 1) / 2 ∧
      (∀ ys s', stableSort cmp xs s = (.ok ys, s') →
        ys.Perm xs ∧ ∀ call ∈ calls cmp xs s, ∃ order, call.answer = .ok order) ∧
      (∀ e s', stableSort cmp xs s = (.error e, s') → ∃ done last,
        calls cmp xs s = done ++ [last] ∧ last.answer = .error e ∧
        ∀ call ∈ done, ∃ order, call.answer = .ok order) ∧
      ((∀ call ∈ calls cmp xs s, ∃ order, call.answer = .ok order ∧ order ≠ .gt) →
        ∃ s', stableSort cmp xs s = (.ok xs, s')) := by
  obtain ⟨result, s', keeps, drops, walk⟩ := exists_walk cmp xs s
  obtain ⟨forward, once⟩ := walk.pairs_of_within (within_stableSort (marked_zipIdx xs))
  have distinct : ((calls cmp xs s).map places).Nodup := nodup_places once forward
  refine ⟨by rw [keeps, drops], forward, distinct, ?_, ?_, ?_, ?_⟩
  · rw [← List.length_map places]
    refine length_le_of_pairs distinct (List.forall_mem_map.2 fun call mem => ?_)
    obtain ⟨-, mem', less⟩ := forward call mem
    exact ⟨less, List.snd_lt_of_mem_zipIdx mem'⟩
  · rintro ys s'' gives
    rw [drops] at gives
    cases result with
    | error e => cases gives
    | ok sorted =>
      cases gives
      have perm := walk.good_of_ensures (stableSort_perm xs.zipIdx) fun _ _ _ _ => trivial
      refine ⟨?_, walk.answered_of_ok⟩
      rw [← List.zipIdx_map_fst 0 xs]
      exact perm.map Prod.fst
  · rintro e s'' fails
    rw [drops] at fails
    cases result with
    | error e' =>
      cases fails
      exact walk.last_of_error
    | ok sorted => cases fails
  · intro answers
    cases result with
    | error e =>
      obtain ⟨done, last, all, fails, -⟩ := walk.last_of_error
      obtain ⟨order, answered, -⟩ := answers last (by simp [all])
      cases fails.symm.trans answered
    | ok sorted =>
      have kept := walk.good_of_ensures (stableSort_kept xs.zipIdx)
        fun call mem order answered => by
          obtain ⟨order', answered', notGreater⟩ := answers call mem
          cases answered.symm.trans answered'
          exact notGreater
      refine ⟨s', drops.trans ?_⟩
      rw [kept, Except.map, List.zipIdx_map_fst]

/-- Finds nothing greater than anything, and counts its calls. -/
def countingNone (_ _ : Nat) : ExceptT String (StateM Nat) Ordering := fun count =>
  (.ok .lt, count + 1)

/-- Three numbers are left as they are, after two calls. -/
theorem stableSort_calls_none :
    (calls countingNone [3, 1, 2] 0).map places = [(0, 1), (1, 2)] ∧
      ∃ count, stableSort countingNone [3, 1, 2] 0 = (.ok [3, 1, 2], count) := by
  have made : calls countingNone [3, 1, 2] 0 =
      [⟨(3, 0), (1, 1), .ok .lt⟩, ⟨(1, 1), (2, 2), .ok .lt⟩] := rfl
  obtain ⟨-, -, -, -, -, -, kept⟩ := stableSort_calls countingNone [3, 1, 2] 0
  refine ⟨by rw [made]; rfl, kept ?_⟩
  rw [made]
  exact List.forall_mem_cons.2 ⟨⟨.lt, rfl, nofun⟩,
    List.forall_mem_singleton.2 ⟨.lt, rfl, nofun⟩⟩

end ScriptCore.Sort
