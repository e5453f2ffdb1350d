import ScriptCore.Proofs.Conduct.Course
import ScriptCore.Proofs.Conduct.Receivers

/-!
What a call of a script function binds.

A call that is entered checks the number of its arguments and opens a scope below the closure of the
function. Names are bound in it one after another, so the last binding of a name counts: that of the
receiver, or else that of the last parameter of that name. The scope and the array of the remaining
arguments are new, and since no scope and no array ever goes away, no other call gets them.
-/

namespace ScriptCore

namespace Invocation

/-! ### The number of arguments -/

/-- A script function with these parameters takes so many arguments. -/
def Fits (params : List String) (rest : Option Nat) (count : Nat) : Prop :=
  match rest with
  | some place => place ≤ count
  | none => count = params.length

instance {params : List String} {rest : Option Nat} {count : Nat} :
    Decidable (Fits params rest count) :=
  match rest with
  | some place => inferInstanceAs (Decidable (place ≤ count))
  | none => inferInstanceAs (Decidable (count = params.length))

section Count

variable {params : List String} {rest : Option Nat} {count : Nat}

theorem checkCount_of_fits (name : String) (fits : Fits params rest count) :
    checkCount name params rest count = .ok () := by
  cases rest <;> exact if_pos fits

theorem checkCount_of_not_fits (name : String) (unfit : ¬ Fits params rest count) :
    checkCount name params rest count =
      .error (.arity name (rest.getD params.length) count rest.isSome) := by
  cases rest <;> exact if_neg unfit

end Count

/-! ### What is bound -/

/-- What a scope binds a name to, given the parameters, the place of the rest parameter if there is
one, the arguments, the array of those that remain, and the receiver if there is one. -/
inductive Binds (params : List String) (rest : Option Nat) (args : List Value)
    (remaining : Option (Ref .array)) (this : Option Value) : String → Value → Prop
  | receiver {receiver : Value} (given : this = some receiver) :
    Binds params rest args remaining this receiverName receiver
  | rest {place : Nat} {name : String} {r : Ref .array} (takes : rest = some place)
    (named : params[place]? = some name) (made : remaining = some r)
    (free : name = receiverName → this = none) :
    Binds params rest args remaining this name (.array r)
  | fixed {i : Nat} {name : String} {arg : Value} (below : i < rest.getD params.length)
    (named : params[i]? = some name) (given : args[i]? = some arg)
    (last : ∀ j, i < j → j ≤ rest.getD params.length → params[j]? ≠ some name)
    (free : name = receiverName → this = none) :
    Binds params rest args remaining this name arg

section Tables

variable {params : List String} {rest : Option Nat} {args : List Value} {bindings : Table}

theorem fixedBindings_eq (params : List String) (rest : Option Nat) (args : List Value) :
    fixedBindings params rest args = (params.take (rest.getD params.length)).zip args := by
  cases rest <;> simp [fixedBindings]

/-- What the parameters before the rest parameter bind a name to that is not the name of the rest
parameter. -/
theorem get?_insertAll_fixed {name : String} (fits : Fits params rest args.length)
    (apart : params[rest.getD params.length]? ≠ some name) (remaining : Option (Ref .array))
    (v : Value) :
    (OrderedIndex.empty.insertAll (fixedBindings params rest args) : Table).get? name = some v ↔
      Binds params rest args remaining none name v := by
  have enough : (params.take (rest.getD params.length)).length ≤ args.length := by
    cases rest <;> simp [Fits] at fits ⊢ <;> omega
  rw [fixedBindings_eq, OrderedIndex.get?_insertAll_zip _ enough]
  simp only [List.getElem?_take, ne_eq, ite_eq_iff, reduceCtorEq, and_false, or_false, not_and]
  constructor
  · rintro (⟨i, ⟨below, named⟩, given, last⟩ | ⟨-, bound⟩)
    · refine .fixed below named given (fun j behind within => ?_) fun _ => rfl
      rcases Nat.lt_or_eq_of_le within with inside | rfl
      · exact last j behind inside
      · exact apart
    · cases bound
  · intro binds
    cases binds with
    | receiver given => cases given
    | rest takes named =>
      subst takes
      exact absurd named apart
    | @fixed i _ _ below named given last =>
      refine .inl ⟨i, ⟨below, named⟩, given, ?_⟩
      intro j behind inside
      exact last j behind (Nat.le_of_lt inside)

/-- Without a rest parameter, or without a name for it, the others are all that is bound. -/
theorem binds_fixed (fits : Fits params rest args.length)
    (unnamed : ∀ place, rest = some place → params[place]? = none) (name : String) (v : Value) :
    (OrderedIndex.empty.insertAll (fixedBindings params rest args) : Table).get? name = some v ↔
      Binds params rest args none none name v := by
  apply get?_insertAll_fixed fits
  cases rest with
  | none => simp
  | some place => simp [unnamed place rfl]

/-- The rest parameter is bound over the others. -/
theorem binds_rest {place : Nat} {restName : String} (fits : Fits params (some place) args.length)
    (restNamed : params[place]? = some restName) (r : Ref .array) (name : String) (v : Value) :
    ((OrderedIndex.empty.insertAll (fixedBindings params (some place) args) : Table).set restName
        (.array r)).get? name = some v ↔
      Binds params (some place) args (some r) none name v := by
  rw [OrderedIndex.get?_set]
  split
  · next here =>
    subst here
    constructor
    · rintro ⟨⟩
      exact .rest rfl restNamed rfl fun _ => rfl
    · intro binds
      cases binds with
      | receiver given => cases given
      | rest _ _ made =>
        cases made
        rfl
      | fixed below _ _ last => exact absurd restNamed (last place below (Nat.le_refl place))
  · next other =>
    apply get?_insertAll_fixed fits
    intro named
    exact other (Option.some.inj (named.symm.trans restNamed))

/-- The receiver is bound over the parameters. -/
theorem binds_receiver {remaining : Option (Ref .array)}
    (binds : ∀ name v, bindings.get? name = some v ↔
      Binds params rest args remaining none name v) (receiver : Value) (name : String) (v : Value) :
    (bindings.set receiverName receiver).get? name = some v ↔
      Binds params rest args remaining (some receiver) name v := by
  rw [OrderedIndex.get?_set]
  split
  · next here =>
    subst here
    constructor
    · rintro ⟨⟩
      exact .receiver rfl
    · intro bound
      cases bound with
      | receiver given => exact given
      | rest _ _ _ free => cases free rfl
      | fixed _ _ _ _ free => cases free rfl
  · next apart =>
    rw [binds]
    constructor
    · intro bound
      cases bound with
      | receiver given => cases given
      | rest takes named made _ => exact .rest takes named made fun same => absurd same apart
      | fixed below named given last _ =>
        exact .fixed below named given last fun same => absurd same apart
    · intro bound
      cases bound with
      | receiver => exact absurd rfl apart
      | rest takes named made _ => exact .rest takes named made fun _ => rfl
      | fixed below named given last _ => exact .fixed below named given last fun _ => rfl

end Tables

/-- In the second machine there is a new scope below the closure, in which just the names of a
script function are bound, and a new array of the remaining arguments if the function takes them.
Nothing else differs, and all that was in the heap is as it was. -/
structure Binding (params : List String) (rest : Option Nat) (closure : Ref .scope)
    (args : List Value) (this : Option Value) (m : Machine) (scope : Ref .scope)
    (remaining : Option (Ref .array)) (n : Machine) : Prop where
  new : m.heap.scopes.get? scope = none
  opened : ∃ bindings, n.heap.scopes.get? scope = some { bindings, parent := some closure } ∧
    ∀ name v, bindings.get? name = some v ↔ Binds params rest args remaining this name v
  array : ∀ r, remaining = some r → m.heap.arrays.get? r = none ∧
    ∃ place, rest = some place ∧ n.heap.arrays.get? r = some (args.drop place).toArray
  variadic : ∀ place, rest = some place → place < params.length → ∃ r, remaining = some r
  frame : m.Frame none n

/-! ### Opening a scope -/

/-- The scope is new since the first heap and has these bindings in the second one, where nothing
else has changed. -/
structure Opened (h : Heap) (closure scope : Ref .scope) (bindings : Table) (h' : Heap) : Prop where
  new : h.scopes.get? scope = none
  opened : h'.scopes.get? scope = some { bindings, parent := some closure }
  frame : h.Frame none h'

namespace Opened

variable {h h' : Heap} {closure scope : Ref .scope} {bindings : Table}

theorem child (h : Heap) (closure : Ref .scope) :
    Opened h closure (h.childScope closure).1 .empty (h.childScope closure).2 where
  new := by simp [Heap.childScope, Cells.alloc, Cells.get?]
  opened := h.get?_childScope closure
  frame := { Heap.Frame.refl none h with scopes := h.scopes.kept_alloc _ }

theorem define (opened : Opened h closure scope bindings h') (name : String) (v : Value) :
    Opened h closure scope (bindings.set name v) (h'.define scope name v) where
  new := opened.new
  opened := by
    rw [Heap.define, Cells.get?_modify, if_pos rfl, opened.opened]
    rfl
  frame := by
    refine { opened.frame with scopes := fun other content found => ?_ }
    have apart : scope ≠ other := by
      rintro rfl
      exact Option.some_ne_none content (found.symm.trans opened.new)
    rw [Heap.define, Cells.get?_modify, if_neg apart]
    exact opened.frame.scopes other content found

theorem defineAll (opened : Opened h closure scope bindings h') (more : List (String × Value)) :
    Opened h closure scope (bindings.insertAll more) (h'.defineAll scope more) := by
  induction more generalizing bindings h' with
  | nil => exact opened
  | cons binding rest ih => exact ih (opened.define binding.1 binding.2)

theorem newArray (opened : Opened h closure scope bindings h') (items : List Value) :
    Opened h closure scope bindings (h'.newArray items).2 where
  new := opened.new
  opened := opened.opened
  frame := opened.frame.trans (.newArray none h' items)

theorem fresh_nextArray (opened : Opened h closure scope bindings h') :
    h.arrays.get? h'.nextArray = none := by
  cases found : h.arrays.get? h'.nextArray with
  | none => rfl
  | some content => cases h'.get?_nextArray.symm.trans (opened.frame.arrays _ content found)

end Opened

/-! ### Binding arguments -/

section Arguments

variable {params : List String} {rest : Option Nat} {closure scope : Ref .scope}
  {args : List Value} {remaining : Option (Ref .array)} {bindings : Table} {m : Machine}
  {heap : Heap}

/-- The receiver is bound last. -/
theorem on_bindReceiver (opened : Opened m.heap closure scope bindings heap)
    (binds : ∀ name v, bindings.get? name = some v ↔ Binds params rest args remaining none name v)
    (array : ∀ r, remaining = some r → m.heap.arrays.get? r = none ∧
      ∃ place, rest = some place ∧ heap.arrays.get? r = some (args.drop place).toArray)
    (variadic : ∀ place, rest = some place → place < params.length → ∃ r, remaining = some r)
    (this : Option Value) :
    ∃ n, (do
        match this with
        | some receiver => Action.modifyHeap fun h => h.define scope receiverName receiver
        | none => pure ()
        pure scope : Action (Ref .scope)).on { m with heap } = (.ok scope, n) ∧
      Binding params rest closure args this m scope remaining n := by
  cases this with
  | none =>
    exact ⟨_, rfl, opened.new, ⟨_, opened.opened, binds⟩, array, variadic, .of_heap opened.frame⟩
  | some receiver =>
    have opened' := opened.define receiverName receiver
    exact ⟨_, rfl, opened'.new, ⟨_, opened'.opened, binds_receiver binds receiver⟩, array, variadic,
      .of_heap opened'.frame⟩

/-- A script function that takes so many arguments binds them. -/
theorem on_bindArguments (name : String) (closure : Ref .scope) (this : Option Value) (m : Machine)
    (fits : Fits params rest args.length) :
    ∃ scope remaining n,
      (bindArguments name params rest closure args this).on m = (.ok scope, n) ∧
        Binding params rest closure args this m scope remaining n := by
  have counted : (Action.check (checkCount name params rest args.length)).on m = (.ok (), m) := by
    rw [checkCount_of_fits name fits]
    rfl
  have opened := (Opened.child m.heap closure).defineAll (fixedBindings params rest args)
  rw [bindArguments, Run.on_bind_of_ok counted, Run.on_bind_of_ok (Action.on_onHeap _ m),
    Run.on_bind_of_ok (Action.on_modifyHeap _ _)]
  dsimp only
  generalize (m.heap.childScope closure).1 = scope, Heap.defineAll _ _ _ = heap at opened ⊢
  cases rest with
  | none =>
    obtain ⟨n, bound, binding⟩ := on_bindReceiver opened (binds_fixed fits nofun) nofun nofun this
    exact ⟨scope, none, n, bound, binding⟩
  | some place =>
    dsimp only
    cases named : params[place]? with
    | none =>
      have unnamed : ∀ other, some place = some other → params[other]? = none := by
        rintro _ ⟨⟩
        exact named
      have outside : ∀ other, some place = some other → other < params.length →
          ∃ r : Ref .array, none = some r := by
        rintro _ ⟨⟩ inside
        exact absurd (List.getElem?_eq_none_iff.1 named) (Nat.not_le.2 inside)
      obtain ⟨n, bound, binding⟩ :=
        on_bindReceiver opened (binds_fixed fits unnamed) nofun outside this
      exact ⟨scope, none, n, bound, binding⟩
    | some restName =>
      have opened' := (opened.newArray (args.drop place)).define restName (.array heap.nextArray)
      have array : ∀ r, some heap.nextArray = some r → m.heap.arrays.get? r = none ∧
          ∃ other, some place = some other ∧
            (heap.newArray (args.drop place)).2.arrays.get? r =
              some (args.drop other).toArray := by
        rintro _ ⟨⟩
        exact ⟨opened.fresh_nextArray, place, rfl, heap.get?_newArray _⟩
      obtain ⟨n, bound, binding⟩ := on_bindReceiver opened' (binds_rest fits named _) array
        (fun _ _ _ => ⟨_, rfl⟩) this
      rw [Run.on_bind_of_ok (Action.on_newArray _ _), Run.on_bind_of_ok (Action.on_modifyHeap _ _)]
      exact ⟨scope, some heap.nextArray, n, bound, binding⟩

/-- Any other number of arguments is refused, and nothing is bound. -/
theorem on_bindArguments_of_unfit (name : String) (closure : Ref .scope) (this : Option Value)
    (m : Machine) (unfit : ¬ Fits params rest args.length) :
    (bindArguments name params rest closure args this).on m =
      (.error (.fault { cause := .arity name (rest.getD params.length) args.length rest.isSome }),
        m) := by
  rw [bindArguments, checkCount_of_not_fits name unfit, Run.on_bind, Action.on_check_error]

end Arguments

/-! ### Scopes and arrays of different calls -/

/-- Two calls have different scopes and different arrays of remaining arguments. -/
def Unshared (scope scope' : Ref .scope) (remaining remaining' : Option (Ref .array)) : Prop :=
  scope ≠ scope' ∧ ∀ r, remaining = some r → remaining' ≠ some r

theorem Unshared.symm {scope scope' : Ref .scope} {remaining remaining' : Option (Ref .array)}
    (unshared : Unshared scope scope' remaining remaining') :
    Unshared scope' scope remaining' remaining :=
  ⟨unshared.1.symm, fun r mine other => unshared.2 r other mine⟩

section Bindings

variable {params params' : List String} {rest rest' : Option Nat} {closure closure' : Ref .scope}
  {args args' : List Value} {this this' : Option Value} {scope scope' : Ref .scope}
  {remaining remaining' : Option (Ref .array)} {m n m' n' : Machine}

theorem Binding.lookupLocal
    (binding : Binding params rest closure args this m scope remaining n) (name : String)
    (v : Value) : n.heap.lookupLocal scope name = some v ↔
      Binds params rest args remaining this name v := by
  obtain ⟨bindings, opened, binds⟩ := binding.opened
  rw [← binds, Heap.lookupLocal, Heap.scope, opened]
  rfl

/-- What is bound later has a scope and an array of its own, since those of the first call are still
there. -/
theorem Binding.unshared (binding : Binding params rest closure args this m scope remaining n)
    (later : Later n m')
    (binding' : Binding params' rest' closure' args' this' m' scope' remaining' n') :
    Unshared scope scope' remaining remaining' := by
  have grows := later.grows
  constructor
  · obtain ⟨_, opened, -⟩ := binding.opened
    exact Cells.ne_of_new opened grows.scopes binding'.new
  · intro r mine other
    obtain ⟨-, _, -, holds⟩ := binding.array r mine
    obtain ⟨new, -⟩ := binding'.array r other
    exact Cells.ne_of_new holds grows.arrays new rfl

end Bindings

end Invocation

namespace Interpreter

open Invocation

/-! ### Calls of script functions -/

theorem later_performBody (re : Reentry) [re.Leads Reaches] {body : List Expr}
    {scope : Ref .scope} {m : Machine}
    (finished : ((performBody re body scope).on m).1 ≠ .error .exhausted) :
    Later m ((performBody re body scope).on m).2 := by
  have performs : Performs True True fun re => performBody re body scope :=
    performs_performBody (fun _ => trivial) (fun _ => trivial) scope
  exact ((performs.leads (R := Reaches) re).related m finished).later

section Script

variable {steps : Nat} {holds : List Hold} {callee : Ref .function} {args : List Value}
  {this : Option Value} {m n polled : Machine} {calls : CallStack} {name : String}
  {params : List String} {rest : Option Nat} {closure scope : Ref .scope} {body : List Expr}

theorem on_perform_of_bound (re : Reentry)
    (script : polled.heap.callable callee = .script name params rest closure body)
    (bound : (bindArguments name params rest closure args this).on (polled.entering callee calls) =
      (.ok scope, n)) :
    (perform re callee args this).on (polled.entering callee calls) =
      (performBody re body scope).on n := by
  have runs := on_perform re callee args this (polled.entering callee calls)
  rw [Machine.entering, script, ← Machine.entering] at runs
  rw [runs, performCallable, Run.on_bind_of_ok bound]

theorem on_perform_of_unfit (re : Reentry) (this : Option Value)
    (script : m.heap.callable callee = .script name params rest closure body)
    (unfit : ¬ Fits params rest args.length) :
    (perform re callee args this).on m =
      (.error (.fault { cause := .arity name (rest.getD params.length) args.length rest.isSome }),
        m) := by
  rw [on_perform, script, performCallable, Run.on_bind,
    on_bindArguments_of_unfit name closure this m unfit]

end Script

/-- A call of a script function is asked for, and it is entered in the first machine. In the second
one it has bound its arguments in its scope, and those that remain are in the array if it takes
them. -/
inductive Opens : Asked → Machine → Ref .scope → Option (Ref .array) → Machine → Prop
  | call {steps holds callee args this m polled calls name params rest closure body scope remaining
      n}
      (safe : (poll (inside steps holds callee args this)).on m = (.ok (), polled))
      (room : polled.calls.push (polled.heap.functionName callee) = .ok calls)
      (script : polled.heap.callable callee = .script name params rest closure body)
      (bound : (bindArguments name params rest closure args this).on
        (polled.entering callee calls) = (.ok scope, n))
      (binding : Binding params rest closure args this (polled.entering callee calls) scope
        remaining n) :
    Opens ⟨steps + 1, .call holds callee args this, m⟩ (polled.entering callee calls) scope
      remaining n

/-- Two calls are made by one program, or one by a program and the other by a program that is run
later. Their runs are not cut short. -/
inductive Made (first second : Asked) : Prop
  | together {start : Machine} {e : Expr} (finished : (runExpression start e).1 ≠ .error .exhausted)
    (makes : Makes start e first) (makes' : Makes start e second) (other : first ≠ second)
  | inTurn {start start' : Machine} {e e' : Expr}
    (finished : (runExpression start e).1 ≠ .error .exhausted) (makes : Makes start e first)
    (next : Later (runExpression start e).2 start')
    (finished' : (runExpression start' e').1 ≠ .error .exhausted) (makes' : Makes start' e' second)

section Opens

variable {first second : Asked} {m n m' n' : Machine} {scope scope' : Ref .scope}
  {remaining remaining' : Option (Ref .array)}

theorem Opens.before (opens : Opens first m scope remaining n) : Later first.machine m := by
  cases opens with
  | call safe room => exact (later_polled safe).tail (.enter room)

theorem Opens.behind (opens : Opens first m scope remaining n)
    (finished : first.answer.1 ≠ .error .exhausted) : Later n first.answer.2 := by
  cases opens with
  | call safe room script bound =>
    obtain ⟨works, goesOn⟩ := later_of_work safe room finished
    rw [work, on_perform_of_bound _ script bound] at works goesOn
    exact (later_performBody _ works).trans goesOn

/-- What a call encloses stands in its safe point, before it opens its scope, or in its body, behind
that. -/
theorem Opens.within (opens : Opens first m scope remaining n)
    (chain : Relation.ReflTransGen (Encloses True) first second) (other : first ≠ second)
    (finished : first.answer.1 ≠ .error .exhausted) :
    Later n second.machine ∨ Later second.answer.2 m := by
  obtain rfl | ⟨next, encloses, chain⟩ := chain.cases_head
  · exact absurd rfl other
  obtain ⟨answered, -⟩ := encloses.later.2 finished
  obtain ⟨-, before, behind⟩ := later_of_chain chain answered
  cases opens with
  | @call steps holds callee args this m polled calls name params rest closure body scope _ n
      safe room script bound =>
    cases encloses with
    | poll hangs =>
      have polls := (brackets_poll (inside steps holds callee args this) m).behind _ _ hangs
      rw [safe] at polls
      rw [Asked.answer_eq] at behind
      exact .inr ((behind.trans (polls nofun)).tail (.enter room))
    | body safe' room' _ hangs =>
      cases safe.symm.trans safe'
      cases room.symm.trans room'
      have runs : (fun re => (perform re callee args this).on (polled.entering callee calls)) =
          fun re => (performBody re body scope).on n :=
        funext fun re => on_perform_of_bound re script bound
      rw [runs] at hangs
      have performs : Performs True True fun re => performBody re body scope :=
        performs_performBody (fun _ => trivial) (fun _ => trivial) scope
      have brackets := performs.brackets (inside steps holds callee args this) n
      exact .inl ((brackets.before _ _ hangs).trans before)

theorem Opens.later_of_chain (opens : Opens first m scope remaining n)
    (opens' : Opens second m' scope' remaining' n')
    (chain : Relation.ReflTransGen (Encloses True) first second) (other : first ≠ second)
    (finished : first.answer.1 ≠ .error .exhausted) : Later n m' ∨ Later n' m := by
  obtain ⟨finished', -⟩ := Interpreter.later_of_chain chain finished
  obtain before | behind := opens.within chain other finished
  · exact .inl (before.trans opens'.before)
  · exact .inr ((opens'.behind finished').trans behind)

/-- Of two calls that are ordered, one has bound its arguments before the other binds its own. -/
theorem Opens.later_of_ordered (opens : Opens first m scope remaining n)
    (opens' : Opens second m' scope' remaining' n') (ordered : first.Ordered second)
    (other : first ≠ second) (finished : first.answer.1 ≠ .error .exhausted)
    (finished' : second.answer.1 ≠ .error .exhausted) : Later n m' ∨ Later n' m := by
  rcases ordered with outside | inside | before | behind
  · exact opens.later_of_chain opens' outside other finished
  · exact (opens'.later_of_chain opens inside other.symm finished').symm
  · exact .inl (((opens.behind finished).trans before).trans opens'.before)
  · exact .inr (((opens'.behind finished').trans behind).trans opens.before)

theorem Opens.unshared_of_later (opens : Opens first m scope remaining n)
    (opens' : Opens second m' scope' remaining' n') (later : Later n m') :
    Unshared scope scope' remaining remaining' := by
  cases opens with
  | call _ _ _ _ binding =>
    cases opens' with
    | call _ _ _ _ binding' => exact binding.unshared later binding'

/-- Calls that are made by programs share nothing of what they open. -/
theorem Opens.unshared (opens : Opens first m scope remaining n)
    (opens' : Opens second m' scope' remaining' n') (made : Made first second) :
    Unshared scope scope' remaining remaining' := by
  cases made with
  | together finished makes makes' other =>
    obtain ⟨answered, -⟩ := makes.later finished
    obtain ⟨answered', -⟩ := makes'.later finished
    have ordered := makes.ordered finished makes'
    obtain before | behind := opens.later_of_ordered opens' ordered other answered answered'
    · exact opens.unshared_of_later opens' before
    · exact (opens'.unshared_of_later opens behind).symm
  | inTurn finished makes next finished' makes' =>
    obtain ⟨answered, -, goesOn⟩ := makes.later finished
    obtain ⟨-, reached, -⟩ := makes'.later finished'
    have ends := (opens.behind answered).trans goesOn
    have begins := reached.trans opens'.before
    exact opens.unshared_of_later opens' ((ends.trans next).trans begins)

end Opens

/-- A call of a script function that is entered runs the body of the function exactly if the number
of arguments fits. The body runs in a new scope below the closure, in which just the names of the
parameters and the receiver are bound, and nothing else has changed; no other call opens that scope,
or has that array of remaining arguments. If the number does not fit, the call fails with the number
that is needed and whether more are taken, and it leaves everything as it was when it was
entered. -/
theorem invoke_binds (steps : Nat) (holds : List Hold) (callee : Ref .function)
    (args : List Value) (this : Option Value) {m polled : Machine} {calls : CallStack}
    {name : String} {params : List String} {rest : Option Nat} {closure : Ref .scope}
    {body : List Expr}
    (safe : (poll (inside steps holds callee args this)).on m = (.ok (), polled))
    (room : polled.calls.push (polled.heap.functionName callee) = .ok calls)
    (script : polled.heap.callable callee = .script name params rest closure body) :
    let re := inside steps holds callee args this
    let asked : Asked := ⟨steps + 1, .call holds callee args this, m⟩
    let entered := polled.entering callee calls
    let outcome := (invoke (steps + 1) holds callee args this).on m
    (Fits params rest args.length → ∃ scope remaining n,
      Opens asked entered scope remaining n ∧
      Binding params rest closure args this entered scope remaining n ∧
      outcome = (((traced (performBody re body scope)).on n).1,
        leave callee ((performBody re body scope).on n).2) ∧
      ∀ second m' scope' remaining' n', Opens second m' scope' remaining' n' →
        Later n m' ∨ Made asked second ∨ Made second asked →
          Unshared scope scope' remaining remaining') ∧
    (¬ Fits params rest args.length →
      outcome = (.error (.fault
          { cause := .arity name (rest.getD params.length) args.length rest.isSome
            trace := some calls.capture }),
        leave callee entered)) := by
  dsimp only
  constructor
  · intro fits
    obtain ⟨scope, remaining, n, bound, binding⟩ :=
      on_bindArguments name closure this (polled.entering callee calls) fits
    have runs := on_perform_of_bound (inside steps holds callee args this) script bound
    have opens : Opens ⟨steps + 1, .call holds callee args this, m⟩ _ scope remaining n :=
      .call safe room script bound binding
    refine ⟨scope, remaining, n, opens, binding, ?_,
      fun second m' scope' remaining' n' opens' => ?_⟩
    · rw [invoke_of_room steps holds callee args this safe room, work, on_traced_congr runs, runs]
    · rintro (later | made | made)
      · exact opens.unshared_of_later opens' later
      · exact opens.unshared opens' made
      · exact (opens'.unshared opens made).symm
  · intro unfit
    have fails := on_perform_of_unfit (m := polled.entering callee calls)
      (inside steps holds callee args this) this script unfit
    obtain ⟨rfl, -⟩ := CallStack.push_eq_ok_iff.1 room
    rw [invoke_of_room steps holds callee args this safe room, work, fails,
      on_traced_of_fault fails]
    rfl

/-- A machine with a function whose parameters are a name that stands twice, the receiver's name and
a rest parameter. -/
def gathering : Machine := .fresh
  { functions := ⟨#[.script "gather" ["item", "item", "this", "more"] (some 3) ⟨0⟩ []]⟩
    scopes := ⟨#[{}]⟩ }

/-- The arguments of a call of that function. -/
def gathered : List Value := [.ofNat 1, .ofNat 2, .ofNat 3, .ofNat 4, .ofNat 5]

/-- A call of that function with a receiver. -/
def gather : Asked := ⟨1, .call [] ⟨0⟩ gathered (some (.text "me")), gathering⟩

/-- The same call once more, but without a receiver. -/
def gatherAgain : Asked := ⟨1, .call [] ⟨0⟩ gathered none, gather.answer.2⟩

/-- The last binding of each name counts, and the second call has a scope and an array of its own.
With two arguments the function fails. -/
theorem invoke_binds_overlapping :
    (∃ m scope r n, Opens gather m scope (some r) n ∧
      n.heap.lookupLocal scope "item" = some (.ofNat 2) ∧
      n.heap.lookupLocal scope receiverName = some (.text "me") ∧
      n.heap.lookupLocal scope "more" = some (.array r) ∧
      n.heap.items r = [.ofNat 4, .ofNat 5] ∧
      ∃ m' scope' remaining' n', Opens gatherAgain m' scope' remaining' n' ∧
        n'.heap.lookupLocal scope' receiverName = some (.ofNat 3) ∧
        Unshared scope scope' (some r) remaining') ∧
    ∃ m', (invoke 1 [] ⟨0⟩ [.ofNat 1, .ofNat 2] none).on gathering =
      (.error (.fault { cause := .arity "gather" 3 2 true, trace := some ["gather"] }), m') := by
  have safe (args : List Value) (this : Option Value) :
      (poll (inside 0 [] ⟨0⟩ args this)).on gathering =
        (.ok (), gathering.dispatchBegun.dispatchOver) := rfl
  constructor
  · obtain ⟨binds, -⟩ := invoke_binds 0 [] ⟨0⟩ gathered (some (.text "me")) (safe _ _) rfl rfl
    obtain ⟨scope, remaining, n, opens, binding, -, others⟩ := binds (by decide)
    obtain ⟨r, rfl⟩ := binding.variadic 3 rfl (by decide)
    obtain ⟨-, _, ⟨⟩, holds⟩ := binding.array r rfl
    have safe' : (poll (inside 0 [] ⟨0⟩ gathered none)).on gather.answer.2 =
        (.ok (), gather.answer.2.dispatchBegun.dispatchOver) := rfl
    obtain ⟨binds', -⟩ := invoke_binds 0 [] ⟨0⟩ gathered none safe' rfl rfl
    obtain ⟨scope', remaining', n', opens', binding', -⟩ := binds' (by decide)
    have later : Later n _ := (opens.behind (by rintro ⟨⟩)).trans opens'.before
    refine ⟨_, scope, r, n, opens, ?_, ?_, ?_, ?_, _, scope', remaining', n', opens', ?_,
      others _ _ _ _ _ opens' (.inl later)⟩
    · refine (binding.lookupLocal _ _).2 (.fixed (i := 1) (by decide) rfl rfl ?_ (by decide))
      intro j behind within
      obtain rfl | rfl : j = 2 ∨ j = 3 := by
        rw [Option.getD_some] at within
        omega
      all_goals decide
    · exact (binding.lookupLocal _ _).2 (.receiver rfl)
    · exact (binding.lookupLocal _ _).2 (.rest rfl rfl rfl (by decide))
    · rw [Heap.items, Heap.elements, holds]
      rfl
    · refine (binding'.lookupLocal _ _).2 (.fixed (i := 2) (by decide) rfl rfl ?_ fun _ => rfl)
      intro j behind within
      obtain rfl : j = 3 := by
        rw [Option.getD_some] at within
        omega
      decide
  · obtain ⟨-, fails⟩ := invoke_binds 0 [] ⟨0⟩ [.ofNat 1, .ofNat 2] none (safe _ _) rfl rfl
    exact ⟨_, fails (by decide)⟩

end Interpreter

end ScriptCore
