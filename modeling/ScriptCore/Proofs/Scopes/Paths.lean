import ScriptCore.Heap.Scopes
import ScriptCore.Proofs.Actions
import ScriptCore.Proofs.Index.View

/-!
Ways up a tree of scopes.

Where every parent is older than its children, the way from a scope up to the root is finite, and
the chain of scopes that a name is looked up along is this way. The nearest scope that binds a name
is the first one on it that does.
-/

namespace ScriptCore

/-! ### Ways up -/

/-- The way from a scope up to the root comes to another one, or is there at once, and every scope
that it leaves before has the property. -/
inductive WayUp (parent : Ref .scope → Option (Ref .scope)) (leaves : Ref .scope → Prop) :
    Ref .scope → Ref .scope → Prop where
  | here (s : Ref .scope) : WayUp parent leaves s s
  | up {s p t : Ref .scope} (left : leaves s) (below : parent s = some p)
      (further : WayUp parent leaves p t) : WayUp parent leaves s t

section Ways

variable (parent : Ref .scope → Option (Ref .scope)) (binds : Ref .scope → Prop)

/-- A scope is another one or encloses it. -/
def Encloses (outer inner : Ref .scope) : Prop := WayUp parent (fun _ => True) inner outer

/-- The way up meets the scope before any other one that binds. -/
def MeetsFirst (s t : Ref .scope) : Prop := WayUp parent (fun u => ¬ binds u) s t

/-- The nearest scope that binds. -/
def Nearest (s b : Ref .scope) : Prop := MeetsFirst parent binds s b ∧ binds b

/-- No scope up to the root binds. -/
def Unbound (s : Ref .scope) : Prop := ∀ b, Encloses parent b s → ¬ binds b

/-- A parent is older than its children. -/
def ParentsOlder : Prop := ∀ s p, parent s = some p → p.index < s.index

variable {parent binds}

theorem MeetsFirst.encloses {s t : Ref .scope} (meets : MeetsFirst parent binds s t) :
    Encloses parent t s := by
  induction meets with
  | here s => exact .here s
  | up _ below _ ih => exact .up trivial below ih

theorem Nearest.unique {s b c : Ref .scope} (nearest : Nearest parent binds s b)
    (other : Nearest parent binds s c) : b = c := by
  obtain ⟨way, binding⟩ := nearest
  obtain ⟨way', binding'⟩ := other
  induction way with
  | here s =>
    cases way' with
    | here => rfl
    | up free _ _ => exact absurd binding free
  | up free below _ ih =>
    cases way' with
    | here => exact absurd binding' free
    | up _ below' further' =>
      cases below.symm.trans below'
      exact ih binding further'

theorem Nearest.not_unbound {s b : Ref .scope} (nearest : Nearest parent binds s b) :
    ¬ Unbound parent binds s := by
  intro unbound
  exact unbound b nearest.1.encloses nearest.2

/-- A scope that does not bind has the nearest binding of its parent. -/
theorem nearest_of_child {s p b : Ref .scope} (free : ¬ binds s) (below : parent s = some p) :
    Nearest parent binds s b ↔ Nearest parent binds p b := by
  constructor
  · rintro ⟨way, binding⟩
    cases way with
    | here => exact absurd binding free
    | up _ below' further =>
      cases below.symm.trans below'
      exact ⟨further, binding⟩
  · rintro ⟨way, binding⟩
    exact ⟨.up free below way, binding⟩

theorem not_nearest_of_root {s b : Ref .scope} (free : ¬ binds s) (root : parent s = none) :
    ¬ Nearest parent binds s b := by
  rintro ⟨way, binding⟩
  cases way with
  | here => exact free binding
  | up _ below _ => exact nomatch root.symm.trans below

/-- What holds of a scope whenever it holds of its parent holds of every scope. -/
theorem ParentsOlder.induction (older : ParentsOlder parent) {motive : Ref .scope → Prop}
    (step : ∀ s, (∀ p, parent s = some p → motive p) → motive s) (s : Ref .scope) : motive s := by
  induction index : s.index using Nat.strongRecOn generalizing s with
  | _ n ih =>
    apply step
    intro p below
    exact ih p.index (index ▸ older s p below) p rfl

end Ways

/-! ### Ways in the heap -/

namespace Heap

variable {h : Heap} {s t b p : Ref .scope} {name : String}

/-- The scope itself binds the name. -/
def Binds (h : Heap) (name : String) (s : Ref .scope) : Prop :=
  (h.lookupLocal s name).isSome = true

theorem bindsLocal_iff : h.bindsLocal s name = true ↔ h.Binds name s := by
  rw [bindsLocal, OrderedIndex.contains_iff, Binds, lookupLocal, OrderedIndex.isSome_get?_iff]

section Chains

variable (older : ParentsOlder h.parentScope?)

include older

/-- With enough steps, the scopes up towards the root are the same, namely all up to the root. -/
theorem ancestry_congr {steps steps' : Nat} (enough : s.index < steps)
    (enough' : s.index < steps') : h.ancestry steps s = h.ancestry steps' s := by
  induction s using older.induction generalizing steps steps' with
  | step s ih =>
    obtain ⟨steps, rfl⟩ := Nat.exists_eq_add_one_of_ne_zero (Nat.ne_zero_of_lt enough)
    obtain ⟨steps', rfl⟩ := Nat.exists_eq_add_one_of_ne_zero (Nat.ne_zero_of_lt enough')
    rw [ancestry, ancestry]
    cases below : h.parentScope? s with
    | none => rfl
    | some p =>
      have first := older s p below
      have same : h.ancestry steps p = h.ancestry steps' p := ih p below (by omega) (by omega)
      simp only [same]

theorem chain_of_child (below : h.parentScope? s = some p) : h.chain s = s :: h.chain p := by
  have first := older s p below
  rw [chain, ancestry, below, chain]
  simp only [ancestry_congr older first (Nat.lt_succ_self p.index)]

end Chains

theorem chain_of_root (root : h.parentScope? s = none) : h.chain s = [s] := by
  rw [chain, ancestry, root]

theorem head_chain (h : Heap) (s : Ref .scope) : ∃ rest, h.chain s = s :: rest := ⟨_, rfl⟩

/-! ### The nearest binding -/

theorem binder?_of_binds (binding : h.Binds name s) : h.binder? s name = some s := by
  obtain ⟨rest, chain⟩ := h.head_chain s
  rw [binder?, chain]
  exact List.find?_cons_of_pos (bindsLocal_iff.2 binding)

theorem binder?_of_root (free : ¬ h.Binds name s) (root : h.parentScope? s = none) :
    h.binder? s name = none := by
  have locally : h.bindsLocal s name ≠ true := mt bindsLocal_iff.1 free
  simp [binder?, chain_of_root root, locally]

theorem binder?_of_child (older : ParentsOlder h.parentScope?) (free : ¬ h.Binds name s)
    (below : h.parentScope? s = some p) : h.binder? s name = h.binder? p name := by
  have locally : h.bindsLocal s name ≠ true := mt bindsLocal_iff.1 free
  simp [binder?, chain_of_child older below, locally]

/-- Looking a name up gives what the nearest scope that binds it holds. -/
theorem lookup_eq_bind (h : Heap) (s : Ref .scope) (name : String) :
    h.lookup s name = (h.binder? s name).bind fun b => h.lookupLocal b name := by
  rw [lookup, binder?]
  induction h.chain s with
  | nil => rfl
  | cons t rest ih =>
    have same : h.bindsLocal t name = (h.lookupLocal t name).isSome := by
      rw [Bool.eq_iff_iff, bindsLocal_iff, Binds]
    rw [List.findSome?_cons, List.find?_cons, same]
    cases found : h.lookupLocal t name with
    | none => exact ih
    | some v => exact found.symm

variable (older : ParentsOlder h.parentScope?)

include older

theorem binder?_eq_some_iff :
    h.binder? s name = some b ↔ Nearest h.parentScope? (h.Binds name) s b := by
  induction s using older.induction with
  | step s ih =>
    by_cases binding : h.Binds name s
    · rw [binder?_of_binds binding]
      constructor
      · intro same
        cases same
        exact ⟨.here _, binding⟩
      · intro nearest
        exact congrArg some (Nearest.unique ⟨.here s, binding⟩ nearest)
    · cases below : h.parentScope? s with
      | none =>
        rw [binder?_of_root binding below]
        constructor
        · intro found
          cases found
        · intro nearest
          exact absurd nearest (not_nearest_of_root binding below)
      | some p =>
        rw [binder?_of_child older binding below, ih p below, nearest_of_child binding below]

theorem binder?_eq_none_iff :
    h.binder? s name = none ↔ Unbound h.parentScope? (h.Binds name) s := by
  constructor
  · intro none b encloses
    induction encloses with
    | here s =>
      intro binding
      rw [binder?_of_binds binding] at none
      exact nomatch none
    | @up s p b _ below _ ih =>
      apply ih
      by_cases binding : h.Binds name s
      · rw [binder?_of_binds binding] at none
        exact nomatch none
      · rwa [binder?_of_child older binding below] at none
  · intro unbound
    rw [Option.eq_none_iff_forall_ne_some]
    intro b found
    exact ((binder?_eq_some_iff older).1 found).not_unbound unbound

/-- A name has a nearest binding, or none at all. -/
theorem nearest_or_unbound (s : Ref .scope) (name : String) :
    (∃ b, Nearest h.parentScope? (h.Binds name) s b) ∨
      Unbound h.parentScope? (h.Binds name) s := by
  cases found : h.binder? s name with
  | none => exact .inr ((binder?_eq_none_iff older).1 found)
  | some b => exact .inl ⟨b, (binder?_eq_some_iff older).1 found⟩

theorem lookup_of_nearest (nearest : Nearest h.parentScope? (h.Binds name) s b) :
    h.lookup s name = h.lookupLocal b name := by
  rw [lookup_eq_bind, (binder?_eq_some_iff older).2 nearest]
  rfl

theorem lookup_eq_none_iff :
    h.lookup s name = none ↔ Unbound h.parentScope? (h.Binds name) s := by
  rcases nearest_or_unbound older s name with ⟨b, nearest⟩ | unbound
  · rw [lookup_of_nearest older nearest]
    constructor
    · intro missing
      exact absurd missing (Option.isSome_iff_ne_none.1 nearest.2)
    · intro unbound
      exact absurd unbound nearest.not_unbound
  · rw [lookup_eq_bind, (binder?_eq_none_iff older).2 unbound]
    constructor
    · intro _
      exact unbound
    · intro _
      rfl

end Heap

end ScriptCore
