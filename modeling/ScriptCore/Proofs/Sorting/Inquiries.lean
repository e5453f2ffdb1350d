import Mathlib.Data.List.Perm.Basic
import ScriptCore.Sort

/-!
A sort as a tree of questions.

All that a sort learns of its elements are the answers of the comparison. So it is a tree: a node
asks how two elements compare and has a branch for each answer, and a leaf is a sorted list. A sort
by a comparison that acts, changes its mind or fails is a walk from the root of that tree, which
ends at a leaf or with the first call that fails. What holds along all branches therefore holds
whatever the comparison does.
-/

namespace ScriptCore

/-- A computation that can do nothing but ask how two elements compare. -/
inductive Inquiry (α β : Type) where
  | ended (result : β)
  | asks (x y : α) (next : Ordering → Inquiry α β)

namespace Inquiry

variable {α β γ : Type}

/-- Goes on after an inquiry. -/
def andThen (next : β → Inquiry α γ) : Inquiry α β → Inquiry α γ
  | ended result => next result
  | asks x y branches => asks x y fun order => (branches order).andThen next

instance : Monad (Inquiry α) where
  pure := ended
  bind p next := p.andThen next

/-- Asks how two elements compare. -/
def ask (x y : α) : Inquiry α Ordering := asks x y ended

/-! ### Answering -/

section Running

variable {m : Type → Type} [Monad m] (cmp : α → α → m Ordering)

/-- Answers the questions by a comparison. -/
def run : Inquiry α β → m β
  | ended result => pure result
  | asks x y branches => do
    let order ← cmp x y
    (branches order).run

variable [LawfulMonad m]

theorem run_ask (x y : α) : (ask x y).run cmp = cmp x y := bind_pure (cmp x y)

theorem run_bind (p : Inquiry α β) (next : β → Inquiry α γ) :
    (p >>= next).run cmp = p.run cmp >>= fun result => (next result).run cmp := by
  induction p with
  | ended result => exact (pure_bind result fun result => (next result).run cmp).symm
  | asks x y branches ih =>
    calc cmp x y >>= (fun order => (branches order >>= next).run cmp)
        = cmp x y >>= (fun order => (branches order).run cmp >>= fun result =>
            (next result).run cmp) := bind_congr ih
      _ = (cmp x y >>= fun order => (branches order).run cmp) >>= fun result =>
            (next result).run cmp := (bind_assoc _ _ _).symm

end Running

/-! ### What holds along all branches -/

/-- Every leaf that is reached by answers to be expected has the property. -/
def Ensures (expected : α → α → Ordering → Prop) (good : β → Prop) : Inquiry α β → Prop
  | ended result => good result
  | asks x y branches => ∀ order, expected x y order → (branches order).Ensures expected good

/-- Every leaf has the property, whatever is answered. -/
abbrev Always (good : β → Prop) (p : Inquiry α β) : Prop := p.Ensures (fun _ _ _ => True) good

/-- Every question is about a pair that is allowed, and no branch asks about a pair twice. -/
def Within (allowed : α → α → Prop) : Inquiry α β → Prop
  | ended _ => True
  | asks x y branches => allowed x y ∧
    ∀ order, (branches order).Within fun a b => allowed a b ∧ (a, b) ≠ (x, y)

section Rules

variable {expected : α → α → Ordering → Prop} {good : β → Prop} {fine : γ → Prop}
  {allowed others : α → α → Prop} {p : Inquiry α β} {next : β → Inquiry α γ}

theorem Ensures.bind (first : p.Ensures expected good)
    (second : ∀ result, good result → (next result).Ensures expected fine) :
    (p >>= next).Ensures expected fine := by
  induction p with
  | ended result => exact second result first
  | asks x y branches ih => exact fun order expects => ih order (first order expects)

theorem Ensures.mono {better : β → Prop} (ensures : p.Ensures expected good)
    (implies : ∀ result, good result → better result) : p.Ensures expected better := by
  induction p with
  | ended result => exact implies result ensures
  | asks x y branches ih => exact fun order expects => ih order (ensures order expects)

theorem Ensures.and {fair : β → Prop} (left : p.Ensures expected good)
    (right : p.Ensures expected fair) :
    p.Ensures expected fun result => good result ∧ fair result := by
  induction p with
  | ended result => exact ⟨left, right⟩
  | asks x y branches ih =>
    exact fun order expects => ih order (left order expects) (right order expects)

/-- What holds whatever is answered holds for the answers to be expected. -/
theorem Always.ensures (always : p.Always good) : p.Ensures expected good := by
  induction p with
  | ended result => exact always
  | asks x y branches ih => exact fun order _ => ih order (always order trivial)

/-- A leaf that is reached by answers that may be missing. -/
theorem Always.of_run (always : p.Always good) {decide : α → α → Option Ordering} {result : β}
    (gives : p.run decide = some result) : good result := by
  induction p with
  | ended leaf =>
    cases gives
    exact always
  | asks a b branches ih =>
    obtain ⟨given, -, rest⟩ := Option.bind_eq_some_iff.1 gives
    exact ih given (always given trivial) rest

theorem Within.mono (within : p.Within allowed) (implies : ∀ a b, allowed a b → others a b) :
    p.Within others := by
  induction p generalizing allowed others with
  | ended result => trivial
  | asks x y branches ih =>
    obtain ⟨here, later⟩ := within
    exact ⟨implies x y here, fun order =>
      ih order (later order) fun a b both => ⟨implies a b both.1, both.2⟩⟩

/-- Two inquiries that have no pair in common may follow one another. -/
theorem Within.bind (first : p.Within allowed) (always : p.Always good)
    (second : ∀ result, good result → (next result).Within others)
    (apart : ∀ a b, allowed a b → ¬ others a b) :
    (p >>= next).Within fun a b => allowed a b ∨ others a b := by
  induction p generalizing allowed with
  | ended result => exact (second result always).mono fun _ _ => Or.inr
  | asks x y branches ih =>
    obtain ⟨here, later⟩ := first
    refine ⟨.inl here, fun order => ?_⟩
    have rest := ih order (later order) (always order trivial) fun a b allows =>
      apart a b allows.1
    refine rest.mono fun a b => ?_
    rintro (⟨allows, other⟩ | allows)
    · exact ⟨.inl allows, other⟩
    · refine ⟨.inr allows, fun same => ?_⟩
      obtain ⟨rfl, rfl⟩ := Prod.mk.inj same
      exact apart a b here allows

/-- Two inquiries, one for the answer that the first of the two is greater. -/
theorem Ensures.ask_greater {x y : α} {swapped kept : Inquiry α β}
    (greater : expected x y .gt → swapped.Ensures expected good)
    (otherwise : ∀ order, order ≠ .gt → expected x y order → kept.Ensures expected good) :
    (ask x y >>= fun order => if order = .gt then swapped else kept).Ensures expected good := by
  intro order expects
  change Ensures expected good (if order = .gt then swapped else kept)
  split
  next isGreater => exact greater (isGreater ▸ expects)
  next notGreater => exact otherwise order notGreater expects

theorem Within.ask_greater {x y : α} {swapped kept : Inquiry α β} (here : allowed x y)
    (greater : swapped.Within fun a b => allowed a b ∧ (a, b) ≠ (x, y))
    (otherwise : kept.Within fun a b => allowed a b ∧ (a, b) ≠ (x, y)) :
    (ask x y >>= fun order => if order = .gt then swapped else kept).Within allowed := by
  refine ⟨here, fun order => ?_⟩
  change Within _ (if order = .gt then swapped else kept)
  split
  · exact greater
  · exact otherwise

theorem Within.then_pure (first : p.Within allowed) (finish : β → γ) :
    (p >>= fun result => pure (finish result)).Within allowed := by
  induction p generalizing allowed with
  | ended result => trivial
  | asks x y branches ih => exact ⟨first.1, fun order => ih order (first.2 order)⟩

end Rules

end Inquiry

end ScriptCore

namespace ScriptCore.Sort

variable {m : Type → Type} [Monad m] {α γ : Type}

/-! ### Halving -/

section Halving

variable (cmp : α → α → m Ordering)

theorem sortWithin_of_short {xs : List α} (short : xs.length ≤ insertionThreshold)
    (halvings : Nat) : sortWithin cmp halvings xs = insertionSort cmp xs := by
  cases halvings with
  | zero => rfl
  | succ halvings => exact if_pos short

/-- The halvings that are left over change nothing. -/
theorem sortWithin_of_length_le {xs : List α} {halvings : Nat} (enough : xs.length ≤ halvings) :
    sortWithin cmp halvings xs = stableSort cmp xs := by
  suffices agree : ∀ n k : Nat, ∀ ys : List α, ys.length ≤ n → ys.length ≤ k →
      sortWithin cmp n ys = sortWithin cmp k ys from
    agree halvings xs.length xs enough (Nat.le_refl _)
  intro n
  induction n with
  | zero =>
    intro k ys few _
    have short : ys.length ≤ insertionThreshold := Nat.le_trans few (Nat.zero_le _)
    rw [sortWithin_of_short cmp short, sortWithin_of_short cmp short]
  | succ n ih =>
    intro k ys fits fits'
    by_cases short : ys.length ≤ insertionThreshold
    · rw [sortWithin_of_short cmp short, sortWithin_of_short cmp short]
    · cases k with
      | zero => exact absurd (Nat.le_trans fits' (Nat.zero_le _)) short
      | succ k =>
        have left : (ys.take (ys.length / 2)).length ≤ n ∧
            (ys.take (ys.length / 2)).length ≤ k := by
          simp only [insertionThreshold, List.length_take] at *
          omega
        have right : (ys.drop (ys.length / 2)).length ≤ n ∧
            (ys.drop (ys.length / 2)).length ≤ k := by
          simp only [insertionThreshold, List.length_drop] at *
          omega
        rw [sortWithin, sortWithin, if_neg short, if_neg short, ih k _ left.1 left.2,
          ih k _ right.1 right.2]

theorem stableSort_of_short {xs : List α} (short : xs.length ≤ insertionThreshold) :
    stableSort cmp xs = insertionSort cmp xs := sortWithin_of_short cmp short xs.length

theorem stableSort_of_long {xs : List α} (long : insertionThreshold < xs.length) :
    stableSort cmp xs = (do
      let left ← stableSort cmp (xs.take (xs.length / 2))
      let right ← stableSort cmp (xs.drop (xs.length / 2))
      merge cmp left right) := by
  obtain ⟨halvings, rest⟩ : ∃ halvings, xs.length = halvings + 1 :=
    Nat.exists_eq_succ_of_ne_zero (by simp only [insertionThreshold] at long; omega)
  have left : (xs.take (xs.length / 2)).length ≤ halvings := by
    rw [List.length_take]
    omega
  have right : (xs.drop (xs.length / 2)).length ≤ halvings := by
    simp only [insertionThreshold, List.length_drop] at *
    omega
  rw [stableSort, ← sortWithin_of_length_le cmp left, ← sortWithin_of_length_le cmp right]
  simp only [rest, sortWithin]
  rw [← rest, if_neg (Nat.not_le.2 long)]

end Halving

/-- The two halves of a list that is too long to be sorted by insertion. -/
structure Halves (before behind : List α) : Prop where
  long : insertionThreshold < (before ++ behind).length
  half : before.length = (before ++ behind).length / 2

theorem Halves.map {before behind : List γ} (halves : Halves before behind) (f : γ → α) :
    Halves (before.map f) (behind.map f) where
  long := by rw [← List.map_append, List.length_map]; exact halves.long
  half := by rw [← List.map_append, List.length_map, List.length_map]; exact halves.half

theorem stableSort_of_halves (cmp : α → α → m Ordering) {before behind : List α}
    (halves : Halves before behind) :
    stableSort cmp (before ++ behind) = (do
      let left ← stableSort cmp before
      let right ← stableSort cmp behind
      merge cmp left right) := by
  rw [stableSort_of_long cmp halves.long, ← halves.half, List.take_left, List.drop_left]

/-- What is so of short lists, and of a longer one if it is so of its two halves, is so of all. -/
theorem halving_induction {motive : List α → Prop}
    (short : ∀ xs, xs.length ≤ insertionThreshold → motive xs)
    (long : ∀ before behind, Halves before behind → motive before → motive behind →
      motive (before ++ behind)) (xs : List α) : motive xs := by
  by_cases few : xs.length ≤ insertionThreshold
  · exact short xs few
  · have split := List.take_append_drop (xs.length / 2) xs
    have halves : Halves (xs.take (xs.length / 2)) (xs.drop (xs.length / 2)) := by
      refine ⟨by rw [split]; exact Nat.lt_of_not_le few, ?_⟩
      rw [split, List.length_take]
      omega
    have whole := long _ _ halves (halving_induction short long _) (halving_induction short long _)
    rwa [split] at whole
termination_by xs.length
decreasing_by
  all_goals simp only [insertionThreshold, List.length_take, List.length_drop] at *
  all_goals omega

/-! ### Sorting by asking -/

section Asking

variable [LawfulMonad m] (f : γ → α) (cmp : α → α → m Ordering)

/-- The inquiry comes to what the computation gives, when it is answered by comparing the images of
the elements. -/
def Follows (p : Inquiry γ (List γ)) (given : m (List α)) : Prop :=
  List.map f <$> p.run (fun a b => cmp (f a) (f b)) = given

variable {f cmp}

theorem Follows.pure (xs : List γ) : Follows f cmp (pure xs) (pure (xs.map f)) :=
  map_pure (List.map f) xs

theorem Follows.bind {p : Inquiry γ (List γ)} {given : m (List α)}
    {next : List γ → Inquiry γ (List γ)} {goOn : List α → m (List α)}
    (first : Follows f cmp p given)
    (second : ∀ xs, Follows f cmp (next xs) (goOn (xs.map f))) :
    Follows f cmp (p >>= next) (given >>= goOn) := by
  rw [Follows, Inquiry.run_bind, map_bind, ← first, bind_map_left]
  exact bind_congr second

theorem Follows.ask_greater {a b : γ} {swapped kept : Inquiry γ (List γ)}
    {givenSwapped givenKept : m (List α)} (greater : Follows f cmp swapped givenSwapped)
    (otherwise : Follows f cmp kept givenKept) :
    Follows f cmp (Inquiry.ask a b >>= fun order => if order = .gt then swapped else kept)
      (cmp (f a) (f b) >>= fun order => if order = .gt then givenSwapped else givenKept) := by
  rw [Follows, Inquiry.run_bind, Inquiry.run_ask, map_bind]
  refine bind_congr fun order => ?_
  split
  · exact greater
  · exact otherwise

variable (f cmp)

theorem follows_sink (x : γ) (reversed : List γ) :
    Follows f cmp (sink Inquiry.ask x reversed) (sink cmp (f x) (reversed.map f)) := by
  induction reversed with
  | nil => exact .pure [x]
  | cons last before ih =>
    exact .ask_greater (ih.bind fun rest => .pure (last :: rest)) (.pure (x :: last :: before))

theorem follows_sinkAll (reversed xs : List γ) :
    Follows f cmp (sinkAll Inquiry.ask reversed xs) (sinkAll cmp (reversed.map f) (xs.map f)) := by
  induction xs generalizing reversed with
  | nil => exact .pure reversed
  | cons x rest ih => exact (follows_sink f cmp x reversed).bind ih

theorem follows_insertionSort (xs : List γ) :
    Follows f cmp (insertionSort Inquiry.ask xs) (insertionSort cmp (xs.map f)) := by
  refine (follows_sinkAll f cmp [] xs).bind fun reversed => ?_
  rw [← List.map_reverse]
  exact .pure reversed.reverse

theorem follows_merge (xs ys : List γ) :
    Follows f cmp (merge Inquiry.ask xs ys) (merge cmp (xs.map f) (ys.map f)) := by
  induction xs, ys using merge.induct with
  | case1 ys =>
    simp only [merge, List.map_nil]
    exact .pure ys
  | case2 xs notNil =>
    cases xs with
    | nil => exact absurd rfl notNil
    | cons x xs =>
      simp only [merge, List.map_nil, List.map_cons]
      exact .pure (x :: xs)
  | case3 x xs y ys takeRight takeLeft =>
    simp only [merge, List.map_cons]
    exact .ask_greater (takeRight.bind fun rest => .pure (y :: rest))
      (takeLeft.bind fun rest => .pure (x :: rest))

theorem follows_stableSort (xs : List γ) :
    Follows f cmp (stableSort Inquiry.ask xs) (stableSort cmp (xs.map f)) := by
  induction xs using halving_induction with
  | short xs short =>
    rw [stableSort_of_short _ short, stableSort_of_short _ (by rwa [List.length_map])]
    exact follows_insertionSort f cmp xs
  | long before behind halves left right =>
    rw [List.map_append, stableSort_of_halves _ halves, stableSort_of_halves cmp (halves.map f)]
    exact left.bind fun ys => right.bind fun zs => follows_merge f cmp ys zs

/-- A sort is the sort that asks, answered by the comparison. -/
theorem run_stableSort (xs : List α) :
    (stableSort Inquiry.ask xs).run cmp = stableSort cmp xs := by
  have follows := follows_stableSort id cmp xs
  rwa [Follows, List.map_id, List.map_id_fun, id_map] at follows

/-- Sorting elements by what they stand for sorts what they stand for. -/
theorem map_stableSort (xs : List γ) :
    List.map f <$> stableSort (fun a b => cmp (f a) (f b)) xs = stableSort cmp (xs.map f) := by
  rw [← run_stableSort]
  exact follows_stableSort f cmp xs

end Asking

end ScriptCore.Sort
