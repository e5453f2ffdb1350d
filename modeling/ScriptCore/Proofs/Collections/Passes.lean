import ScriptCore.Native.Arrays
import ScriptCore.Proofs.Collections.Maps
import ScriptCore.Proofs.Collections.Sets
import ScriptCore.Proofs.Frames

/-!
Passes over the elements of a container.

A pass calls a function for one element after another, each call from the machine that the call
before it left, and the first call that fails ends it. The elements are those that the container had
when the operation began: what the calls do to the container stays done, but it does not change the
pass. This is said over any ways back into an interpreter, so the function may do anything, and even
begin a pass of its own.
-/

namespace ScriptCore

/-- The call of a function in a pass: its arguments, the machines before and after it, and how it
ended. -/
structure PassCall where
  args : List Value
  before : Machine
  answer : Except Failure Value
  after : Machine

/-- Calls of a function, each from the machine that the call before it left. They come to the list
of what they give, or to the failure of the last one. -/
inductive Pass (re : Reentry) (f : Ref .function) :
    Machine → List PassCall → Except Failure (List Value) → Machine → Prop
  | finished {m : Machine} : Pass re f m [] (.ok []) m
  | failed {m n : Machine} {args : List Value} {holds : List Hold} {failure : Failure}
    (made : (re.call holds f args none).on m = (.error failure, n)) :
    Pass re f m [⟨args, m, .error failure, n⟩] (.error failure) n
  | next {m n k : Machine} {args : List Value} {holds : List Hold} {v : Value}
    {calls : List PassCall} {outcome : Except Failure (List Value)}
    (made : (re.call holds f args none).on m = (.ok v, n)) (others : Pass re f n calls outcome k) :
    Pass re f m (⟨args, m, .ok v, n⟩ :: calls) (outcome.map (v :: ·)) k

/-- What the calls that succeeded gave. -/
def answersOf (calls : List PassCall) : List Value :=
  calls.filterMap fun call => call.answer.toOption

namespace Pass

variable {re : Reentry} {f : Ref .function} {m n : Machine} {calls : List PassCall}
  {outcome : Except Failure (List Value)}

theorem answered (pass : Pass re f m calls outcome n) {answers : List Value}
    (succeeded : outcome = .ok answers) : calls.map PassCall.answer = answers.map .ok := by
  induction pass generalizing answers with
  | finished =>
    cases succeeded
    rfl
  | failed made => cases succeeded
  | @next m n k args holds v calls outcome made others ih =>
    cases outcome with
    | error failure => cases succeeded
    | ok rest =>
      cases succeeded
      simp only [List.map_cons, ih rfl]

/-- A pass that fails ends with the first call that does. -/
theorem stopped (pass : Pass re f m calls outcome n) {failure : Failure}
    (fails : outcome = .error failure) :
    ∃ done last, calls = done ++ [last] ∧ last.answer = .error failure ∧
      ∀ call ∈ done, ∃ v, call.answer = .ok v := by
  induction pass with
  | finished => cases fails
  | @failed m n args holds failure made =>
    cases fails
    exact ⟨[], _, rfl, rfl, List.forall_mem_nil _⟩
  | @next m n k args holds v calls outcome made others ih =>
    cases outcome with
    | ok rest => cases fails
    | error failure =>
      obtain ⟨done, last, rfl, failed, succeeded⟩ := ih fails
      refine ⟨_ :: done, last, rfl, failed, ?_⟩
      intro call member
      rcases List.mem_cons.1 member with rfl | member
      · exact ⟨v, rfl⟩
      · exact succeeded call member

end Pass

/-! ### Traversals -/

/-- A pass with the arguments that are given for the answers so far. A pass that succeeds makes all
of these calls in order; one that fails makes them up to the first that fails. -/
structure Traversal (re : Reentry) (f : Ref .function) (given : List Value → List (List Value))
    (m : Machine) (calls : List PassCall) (outcome : Except Failure (List Value)) (n : Machine) :
    Prop where
  pass : Pass re f m calls outcome n
  inOrder : calls.map PassCall.args <+: given (answersOf calls)
  answered : ∀ answers, outcome = .ok answers →
    calls.map PassCall.args = given answers ∧ calls.map PassCall.answer = answers.map .ok
  stopped : ∀ failure, outcome = .error failure → ∃ done last, calls = done ++ [last] ∧
    last.answer = .error failure ∧ ∀ call ∈ done, ∃ v, call.answer = .ok v

/-- An action with an outcome that is known. -/
def Run.giving {ε α : Type} (outcome : Except ε α) : Run ε α := fun m => (outcome, m)

/-- From a machine, the action makes a traversal and then does what there is to be done with the
answers. If a call fails, the action fails with it. -/
def Traverses {α : Type} (re : Reentry) (f : Ref .function)
    (given : List Value → List (List Value)) (m : Machine) (action : Action α)
    (finish : List Value → Action α) : Prop :=
  ∃ calls outcome n, Traversal re f given m calls outcome n ∧
    action.on m = (Run.giving outcome >>= finish).on n

namespace Traverses

variable {α β : Type} {re : Reentry} {f : Ref .function} {given : List Value → List (List Value)}
  {m : Machine} {action : Action α} {finish : List Value → Action α}

theorem nil (none : given [] = []) (same : finish [] = action) :
    Traverses re f given m action finish := by
  refine ⟨[], .ok [], m, ⟨.finished, List.nil_prefix, ?_, ?_⟩, ?_⟩
  · rintro answers ⟨⟩
    exact ⟨none.symm, rfl⟩
  · rintro failure ⟨⟩
  · rw [← same]
    rfl

/-- One call and then a traversal of the rest. -/
theorem step {holds : List Hold} {args : List Value} {next : Value → Action α}
    {later : Value → List Value → List (List Value)} (first : [args] <+: given [])
    (tail : ∀ v answers, given (v :: answers) = args :: later v answers)
    (rest : ∀ v n, Traverses re f (later v) n (next v) fun answers => finish (v :: answers)) :
    Traverses re f given m (re.call holds f args none >>= next) finish := by
  rw [Traverses, Run.on_bind]
  cases made : (re.call holds f args none).on m with
  | mk answer n =>
    cases answer with
    | error failure =>
      have pass : Pass re f m _ _ n := .failed made
      refine ⟨_, _, n, ⟨pass, first, ?_, fun _ => pass.stopped⟩, rfl⟩
      rintro answers ⟨⟩
    | ok v =>
      obtain ⟨calls, outcome, k, traversal, done⟩ := rest v n
      have pass : Pass re f m _ _ k := .next made traversal.pass
      refine ⟨_, _, k, ⟨pass, ?_, ?_, fun _ => pass.stopped⟩, ?_⟩
      · have answers : answersOf (⟨args, m, .ok v, n⟩ :: calls) = v :: answersOf calls := rfl
        rw [answers, tail, List.map_cons]
        exact (List.prefix_cons_inj args).2 traversal.inOrder
      · intro answers succeeded
        refine ⟨?_, pass.answered succeeded⟩
        cases outcome with
        | error failure => cases succeeded
        | ok rest =>
          cases succeeded
          rw [tail, List.map_cons, (traversal.answered rest rfl).1]
      · simp only [done]
        cases outcome <;> rfl

theorem bind {value : List Value → α}
    (first : Traverses re f given m action fun answers => pure (value answers))
    (next : α → Action β) :
    Traverses re f given m (action >>= next) fun answers => next (value answers) := by
  obtain ⟨calls, outcome, n, traversal, done⟩ := first
  refine ⟨calls, outcome, n, traversal, ?_⟩
  rw [Run.on_bind, done]
  cases outcome <;> rfl

theorem congr {other : Action α} (traverses : Traverses re f given m action finish)
    (same : other.on m = action.on m) : Traverses re f given m other finish := by
  rw [Traverses, same]
  exact traverses

end Traverses

/-- From a machine, the action makes a traversal and then adds a new array of what the answers come
to. If a call fails, the action fails with it. -/
def Collects (re : Reentry) (f : Ref .function) (given : List Value → List (List Value))
    (m : Machine) (action : Action Value) (listed : List Value → List Value) : Prop :=
  ∃ calls outcome n, Traversal re f given m calls outcome n ∧
    match outcome with
    | .ok answers =>
      ∃ r n', action.on m = (.ok (.array r), n') ∧ Machine.AddsArray r (listed answers) n n'
    | .error failure => action.on m = (.error failure, n)

theorem Traverses.collects {re : Reentry} {f : Ref .function}
    {given : List Value → List (List Value)} {m : Machine} {action : Action Value}
    {listed : List Value → List Value}
    (traverses : Traverses re f given m action fun answers => Action.newArray (listed answers)) :
    Collects re f given m action listed := by
  obtain ⟨calls, outcome, n, traversal, done⟩ := traverses
  refine ⟨calls, outcome, n, traversal, ?_⟩
  cases outcome with
  | error failure => exact done
  | ok answers => exact ⟨_, _, done, n.addsArray_newArray (listed answers)⟩

/-! ### The loops -/

section Loops

variable (re : Reentry) (f : Ref .function) (m : Machine)

/-- The items whose answers are true values. -/
def chosen (items answers : List Value) : List Value :=
  ((items.zip answers).filter fun entry => entry.2.isTruthy).map Prod.fst

theorem Invocation.traverses_callEach (argss : List (List Value)) :
    Traverses re f (fun _ => argss) m (callEach re f argss) fun _ => pure () := by
  induction argss generalizing m with
  | nil => exact .nil rfl rfl
  | cons args rest ih =>
    have first : callEach re f (args :: rest) =
        (re.adding (.lists rest)).invoke f args none >>= fun _ => callEach re f rest :=
      bind_map_left (Function.const Value PUnit.unit) _ _
    rw [first]
    refine .step ?_ (fun _ _ => rfl) fun _ n => ih n
    exact ⟨rest, rfl⟩

namespace ArrayFunction

theorem traverses_mapFrom (done items : List Value) :
    Traverses re f (fun _ => items.map fun item => [item]) m (mapFrom re f done items)
      fun answers => pure (done.reverse ++ answers) := by
  induction items generalizing done m with
  | nil => exact .nil rfl (congrArg pure (List.append_nil done.reverse))
  | cons item rest ih =>
    refine .step ?_ (fun _ _ => rfl) fun v n => ?_
    · simp
    · have others := ih n (v :: done)
      simpa only [List.reverse_cons, List.append_assoc, List.singleton_append] using others

theorem traverses_filterFrom (kept items : List Value) :
    Traverses re f (fun _ => items.map fun item => [item]) m (filterFrom re f kept items)
      fun answers => pure (kept.reverse ++ chosen items answers) := by
  induction items generalizing kept m with
  | nil => exact .nil rfl (congrArg pure (List.append_nil kept.reverse))
  | cons item rest ih =>
    refine .step ?_ (fun _ _ => rfl) fun v n => ?_
    · simp
    · have others := ih n (if v.isTruthy then item :: kept else kept)
      cases truth : v.isTruthy with
      | true => simpa [chosen, truth] using others
      | false => simpa [chosen, truth] using others

theorem traverses_reduceFrom (acc : Value) (items : List Value) :
    Traverses re f (fun answers => (acc :: answers).zipWith (fun acc item => [acc, item]) items) m
      (reduceFrom re f acc items) fun answers => pure (answers.getLastD acc) := by
  induction items generalizing acc m with
  | nil => exact .nil rfl rfl
  | cons item rest ih =>
    refine .step ?_ (fun _ _ => rfl) fun v n => ?_
    · simp
    · simpa only [List.getLastD_cons] using ih n v

end ArrayFunction

end Loops

/-! ### Folding -/

/-- A reduction from a start combines the value so far with one item after another: a call is given
what the call before it gave. -/
def reducing (start : Value) (items answers : List Value) : List (List Value) :=
  (start :: answers).zipWith (fun acc item => [acc, item]) items

/-- The calls are answered by a function of the two that they are given. -/
def AnsweredBy (step : Value → Value → Value) (calls : List PassCall) : Prop :=
  ∀ call ∈ calls, ∀ acc item, call.args = [acc, item] → call.answer = .ok (step acc item)

/-- Where answers are those of a function, a reduction is its left fold. -/
theorem getLastD_of_answeredBy {step : Value → Value → Value} {calls : List PassCall}
    {items answers : List Value} {start : Value}
    (args : calls.map PassCall.args = reducing start items answers)
    (given : calls.map PassCall.answer = answers.map .ok) (answered : AnsweredBy step calls) :
    answers.getLastD start = items.foldl step start := by
  induction items generalizing start calls answers with
  | nil =>
    have none : calls = [] := by simpa [reducing] using args
    subst none
    have none : answers = [] := by simpa using given.symm
    rw [none]
    rfl
  | cons item rest ih =>
    cases calls with
    | nil => cases args
    | cons call calls =>
      cases answers with
      | nil => cases given
      | cons v answers =>
        obtain ⟨here, later⟩ := List.cons.inj args
        obtain ⟨answer, others⟩ := List.cons.inj given
        have first := answered call List.mem_cons_self start item here
        have same : v = step start item := Except.ok.inj (answer.symm.trans first)
        have rest := ih later others fun call member =>
          answered call (List.mem_cons_of_mem _ member)
        rw [List.getLastD_cons, rest, same]
        rfl

theorem args_of_mem_reducing {start : Value} {items answers args : List Value}
    (member : args ∈ reducing start items answers) : ∃ acc item, args = [acc, item] := by
  rw [reducing, ← List.map_uncurry_zip_eq_zipWith] at member
  obtain ⟨⟨acc, item⟩, -, rfl⟩ := List.mem_map.1 member
  exact ⟨acc, item, rfl⟩

theorem Traversal.foldl {re : Reentry} {f : Ref .function} {start : Value} {items : List Value}
    {m n : Machine} {calls : List PassCall} {outcome : Except Failure (List Value)}
    (traversal : Traversal re f (reducing start items) m calls outcome n)
    {step : Value → Value → Value} (answered : AnsweredBy step calls) :
    (outcome.map fun answers => answers.getLastD start) = .ok (items.foldl step start) := by
  cases outcome with
  | error failure =>
    -- The call that fails is given a value and an item, and those have an answer.
    obtain ⟨done, last, rfl, failed, -⟩ := traversal.stopped failure rfl
    have member : last ∈ done ++ [last] := List.mem_append_right done List.mem_cons_self
    obtain ⟨acc, item, args⟩ := args_of_mem_reducing
      (traversal.inOrder.subset (List.mem_map_of_mem member))
    cases failed.symm.trans (answered last member acc item args)
  | ok answers =>
    obtain ⟨args, given⟩ := traversal.answered answers rfl
    exact congrArg Except.ok (getLastD_of_answeredBy args given answered)

/-! ### The operations -/

section Operations

variable (re : Reentry) (f : Ref .function) (m : Machine)

namespace ArrayFunction

variable (r : Ref .array)

theorem traverses_map :
    Traverses re f (fun _ => (m.heap.items r).map fun item => [item]) m
      (map.call re [.array r, .function f]) Action.newArray := by
  have traverses := (traverses_mapFrom re f m [] (m.heap.items r)).bind Action.newArray
  apply traverses.congr
  simp [call, checkCount, Arguments.exactly, Arguments.array, Arguments.function]

theorem traverses_filter :
    Traverses re f (fun _ => (m.heap.items r).map fun item => [item]) m
      (filter.call re [.array r, .function f])
      fun answers => Action.newArray (chosen (m.heap.items r) answers) := by
  have traverses := (traverses_filterFrom re f m [] (m.heap.items r)).bind Action.newArray
  apply traverses.congr
  simp [call, checkCount, Arguments.exactly, Arguments.array, Arguments.function]

theorem traverses_forEach :
    Traverses re f (fun _ => (m.heap.items r).map fun item => [item]) m
      (forEach.call re [.array r, .function f]) fun _ => pure .null := by
  have traverses := (Invocation.traverses_callEach re f m
    ((m.heap.items r).map fun item => [item])).bind fun _ => pure Value.null
  apply traverses.congr
  simp [call, checkCount, Arguments.exactly, Arguments.array, Arguments.function]

theorem traverses_reduce (initial : Option Value) {start : Value} {items : List Value}
    (reduces : reduction (m.heap.items r) initial = .ok (start, items)) :
    Traverses re f (reducing start items) m
      (reduce.call re (.array r :: .function f :: initial.toList))
      fun answers => pure (answers.getLastD start) := by
  apply (traverses_reduceFrom re f m start items).congr
  cases initial with
  | none =>
    simp [call, checkCount, Arguments.between, Arguments.array, Arguments.function, reduces]
  | some initial =>
    simp [call, checkCount, Arguments.between, Arguments.array, Arguments.function, reduces]

/-- There is nothing to reduce. -/
theorem on_reduce_of_empty (empty : m.heap.items r = []) :
    (reduce.call re [.array r, .function f]).on m = (.error (.fault
      { cause := .typeMismatch "reduce" "non-empty array or initial value" "empty array" }),
      m) := by
  simp [call, checkCount, Arguments.between, Arguments.array, Arguments.function, reduction, empty,
    name]

end ArrayFunction

section Stores

variable {r : Ref .inst}

theorem MapMethod.traverses_forEach {store : MapStore} (owns : m.heap.Owns r (.map store)) :
    Traverses re f (fun _ => store.pairs.map fun pair => [pair.2, pair.1]) m
      (MapMethod.forEach.call re (some (.inst r)) [.function f]) fun _ => pure .null := by
  have traverses := (Invocation.traverses_callEach re f m
    (store.pairs.map fun pair => [pair.2, pair.1])).bind fun _ => pure Value.null
  apply traverses.congr
  simp [call, Arguments.exactly, Arguments.function, Native.on_readStore MapStore.lawful owns]

theorem SetMethod.traverses_forEach {store : SetStore} (owns : m.heap.Owns r (.set store)) :
    Traverses re f (fun _ => store.values.map fun member => [member]) m
      (SetMethod.forEach.call re (some (.inst r)) [.function f]) fun _ => pure .null := by
  have traverses := (Invocation.traverses_callEach re f m
    (store.values.map fun member => [member])).bind fun _ => pure Value.null
  apply traverses.congr
  simp [call, Arguments.exactly, Arguments.function, Native.on_readStore SetStore.lawful owns]

end Stores

end Operations

/-- From a machine, the operation reduces the items from a start: it gives what the last call gives,
or the start if there are no calls. Where the function answers by its arguments alone, that is the
left fold. -/
def Reduces (re : Reentry) (f : Ref .function) (start : Value) (items : List Value) (m : Machine)
    (operation : Action Value) : Prop :=
  ∃ calls outcome n, Traversal re f (reducing start items) m calls outcome n ∧
    operation.on m = (outcome.map fun answers => answers.getLastD start, n) ∧
    ∀ step, AnsweredBy step calls →
      (outcome.map fun answers => answers.getLastD start) = .ok (items.foldl step start)

theorem Traverses.reduces {re : Reentry} {f : Ref .function} {start : Value} {items : List Value}
    {m : Machine} {operation : Action Value}
    (traverses : Traverses re f (reducing start items) m operation
      fun answers => pure (answers.getLastD start)) : Reduces re f start items m operation := by
  obtain ⟨calls, outcome, n, traversal, done⟩ := traverses
  refine ⟨calls, outcome, n, traversal, ?_, fun step answered => traversal.foldl answered⟩
  rw [done]
  cases outcome <;> rfl

/-- Passes go over what the container holds when they begin, whatever the function does meanwhile.

The function is called once for each element in order, until a call fails. `map` makes a new array
of the answers, `filter` one of the items with true answers, `forEach` gives null, and `reduce`
gives the value that the calls hand on, from the initial value or else from the first item; without
either it fails and calls nothing. Map passes each value before its key. Apart from the calls
nothing changes, but for the new array. -/
theorem passes_keep_to_snapshot (re : Reentry) (f : Ref .function) (m : Machine) :
    (∀ r, Collects re f (fun _ => (m.heap.items r).map fun item => [item]) m
      (ArrayFunction.map.call re [.array r, .function f]) fun answers => answers) ∧
    (∀ r, Collects re f (fun _ => (m.heap.items r).map fun item => [item]) m
      (ArrayFunction.filter.call re [.array r, .function f])
      fun answers => chosen (m.heap.items r) answers) ∧
    (∀ r, Traverses re f (fun _ => (m.heap.items r).map fun item => [item]) m
      (ArrayFunction.forEach.call re [.array r, .function f]) fun _ => pure .null) ∧
    (∀ r initial, Reduces re f initial (m.heap.items r) m
      (ArrayFunction.reduce.call re [.array r, .function f, initial])) ∧
    (∀ r first rest, m.heap.items r = first :: rest →
      Reduces re f first rest m (ArrayFunction.reduce.call re [.array r, .function f])) ∧
    (∀ r, m.heap.items r = [] →
      (ArrayFunction.reduce.call re [.array r, .function f]).on m = (.error (.fault
        { cause := .typeMismatch "reduce" "non-empty array or initial value" "empty array" }),
        m)) ∧
    (∀ r store, m.heap.Owns r (.map store) →
      Traverses re f (fun _ => store.pairs.map fun pair => [pair.2, pair.1]) m
        (MapMethod.forEach.call re (some (.inst r)) [.function f]) fun _ => pure .null) ∧
    (∀ r store, m.heap.Owns r (.set store) →
      Traverses re f (fun _ => store.values.map fun member => [member]) m
        (SetMethod.forEach.call re (some (.inst r)) [.function f]) fun _ => pure .null) ∧
    ∀ r items n n', Machine.AddsArray r items n n' → Machine.Frame none n n' := by
  refine ⟨fun r => (ArrayFunction.traverses_map re f m r).collects,
    fun r => (ArrayFunction.traverses_filter re f m r).collects,
    ArrayFunction.traverses_forEach re f m, ?_, ?_, ArrayFunction.on_reduce_of_empty re f m,
    ?_, ?_, ?_⟩
  · intro r initial
    exact (ArrayFunction.traverses_reduce re f m r (some initial) rfl).reduces
  · intro r first rest items
    apply Traverses.reduces
    apply ArrayFunction.traverses_reduce re f m r none
    rw [items]
    rfl
  · intro r store owns
    exact MapMethod.traverses_forEach re f m owns
  · intro r store owns
    exact SetMethod.traverses_forEach re f m owns
  · intro r items n n' adds
    exact adds.frame none

/-- The members of a Set. -/
def twoMembers : SetStore :=
  (SetStore.empty.insert (.text "a") (.text "a")).insert (.text "b") (.text "b")

/-- A machine with that Set and with a function that deletes its argument from it. -/
def selfEmptying : Machine := .fresh
  { functions := ⟨#[.native "delete" (.set .delete), .native "drop" (.bound ⟨0⟩ (.inst ⟨0⟩))]⟩
    instances := ⟨#[{ cls := ⟨0⟩, resource := some (.set twoMembers) }]⟩ }

/-- A pass over that Set with the function that deletes each member. -/
def emptying : Action Value :=
  SetMethod.forEach.call (Interpreter.reentry 2) (some (.inst ⟨0⟩)) [.function ⟨1⟩]

/-- Both members are passed, although the Set is empty in the end. -/
theorem passes_keep_to_snapshot_selfEmptying :
    selfEmptying.heap.Owns ⟨0⟩ (.set twoMembers) ∧
      ∃ calls outcome n,
        Traversal (Interpreter.reentry 2) ⟨1⟩ (fun _ => [[.text "a"], [.text "b"]]) selfEmptying
          calls outcome n ∧
        calls.map PassCall.args = [[.text "a"], [.text "b"]] ∧
        emptying.on selfEmptying = (.ok .null, n) ∧
        ∃ store, n.heap.Owns ⟨0⟩ (.set store) ∧ store.values = [] := by
  have owns : selfEmptying.heap.Owns ⟨0⟩ (.set twoMembers) := rfl
  obtain ⟨-, -, -, -, -, -, -, sets, -⟩ :=
    passes_keep_to_snapshot (Interpreter.reentry 2) ⟨1⟩ selfEmptying
  obtain ⟨calls, outcome, n, traversal, done⟩ := sets ⟨0⟩ twoMembers owns
  have succeeds : (emptying.on selfEmptying).1 = .ok .null := by decide +kernel
  have owner : (emptying.on selfEmptying).2.heap.owner ⟨0⟩ = some (some (.set
      ((twoMembers.erase (.text "a")).erase (.text "b")))) := by decide +kernel
  have run : emptying.on selfEmptying = (Run.giving outcome >>= fun _ => pure .null).on n := done
  rw [run] at succeeds owner
  cases outcome with
  | error failure => cases succeeds
  | ok answers =>
    have args := (traversal.answered answers rfl).1
    exact ⟨owns, calls, .ok answers, n, traversal, args, run, _, owner, by decide +kernel⟩

end ScriptCore
