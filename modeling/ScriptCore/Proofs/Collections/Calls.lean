import ScriptCore.Interpreter
import ScriptCore.Proofs.Actions
import ScriptCore.Proofs.Runs

/-!
Calls on a collection, and what may happen between them.

Calls on an instance alternate with interludes, which leave what the instance owns alone and may do
anything else: write to the arrays and objects that a collection holds, call methods of other
instances, add cells. What a call gives back is read off at once, so that a listing is told by its
items and not by the array that is made for it.

A collection follows a list of rows if the list, taking the same calls with the keys that their
arguments have when they are made, gives the same answers. `Collection.livesAsRows` reduces this to
the construction and to one call.
-/

namespace ScriptCore

/-- A change of the machine between two calls on an instance, which leaves what the instance owns
alone. -/
structure Interlude (r : Ref .inst) where
  change : Machine → Machine
  keeps : ∀ m, (change m).heap.owner r = m.heap.owner r

/-- Any change of the contents of arrays and objects is an interlude. -/
def Interlude.write (r : Ref .inst)
    (arrays : Cells .array (Array Value) → Cells .array (Array Value))
    (objects : Cells .object Table → Cells .object Table) : Interlude r where
  change m := { m with heap := { m.heap with
    arrays := arrays m.heap.arrays, objects := objects m.heap.objects } }
  keeps _ := rfl

/-- Ways back into an interpreter that does nothing. -/
def Reentry.idle : Reentry where
  holds := []
  call _ _ _ _ := pure .null
  request _ _ := pure .empty

/-- A machine with a given heap in which nothing has happened. -/
def Machine.fresh (heap : Heap) : Machine := { Interpreter.blank {} with heap }

/-- What a call gives back: a value, the items of a new array, or the items of each of the new
arrays in a new array. -/
inductive Reply where
  | nothing
  | value (v : Value)
  | listing (items : List Value)
  | rows (rows : List (List Value))
  deriving DecidableEq, Repr

/-- How the result of a call is read off. -/
inductive Reading where
  | asValue
  | asListing
  | asRows

namespace Reading

/-- Reads off a result. -/
def of (reading : Reading) (h : Heap) (v : Value) : Reply :=
  match reading with
  | asValue => .value v
  | asListing => .listing (h.listing v)
  | asRows => .rows ((h.listing v).map h.listing)

/-- Makes a call and reads off what it gives back. -/
def answer (reading : Reading) (call : Action Value) (m : Machine) :
    Except Failure Reply × Machine :=
  let (result, m) := call.on m
  (result.map (reading.of m.heap), m)

variable {call : Action Value} {m : Machine}

theorem answer_of_ok {m' : Machine} {v : Value} (reading : Reading)
    (done : call.on m = (.ok v, m')) :
    reading.answer call m = (.ok (reading.of m'.heap v), m') := by
  rw [answer, done]
  rfl

/-- A new array is told by its items. -/
theorem answer_newArray {items : List Value} (same : call.on m = (Action.newArray items).on m) :
    asListing.answer call m =
      (.ok (.listing items), { m with heap := (m.heap.newArray items).2 }) := by
  have read : asListing.of (m.heap.newArray items).2 (m.heap.newArray items).1 = .listing items :=
    congrArg Reply.listing (m.heap.items_newArray items)
  rw [answer_of_ok _ (same.trans (Action.on_newArray items m)), read]

/-- A new array of new arrays is told by the items of each, and leaves what instances own. -/
theorem answer_newRows {rows : List (List Value)}
    (same : call.on m = (rows.mapM Action.newArray >>= Action.newArray : Action Value).on m) :
    (asRows.answer call m).1 = .ok (.rows rows) ∧
      (asRows.answer call m).2.heap.owner = m.heap.owner := by
  obtain ⟨refs, heap, done, held, below, -, owner⟩ := Action.on_newRows rows m
  rw [Run.on_bind_of_ok done, Action.on_newArray] at same
  rw [answer_of_ok _ same]
  refine ⟨?_, owner⟩
  have kept : ∀ r ∈ refs, (heap.newArray (refs.map .array)).2.items r = heap.items r :=
    fun r member => (heap.arraysKept_newArray _ r (below r member)).2
  rw [of, Heap.newArray_fst, Heap.listing, Heap.items_newArray, List.map_map, ← held,
    ← List.map_congr_left kept]
  rfl

end Reading

/-! ### Following a list of rows -/

/-- An instance of a collection, and the list of rows that it is to follow. -/
structure Collection where
  Command : Type
  Request : Type
  Row : Type
  /-- The constructor, over its argument. -/
  construct : Option Value → Action Value
  onMachine : Command → Machine → Except Failure Reply × Machine
  /-- What the argument of the constructor stands for: requests, one after another. -/
  initial : Heap → Option Value → Except Cause (List Request)
  /-- What a command comes to in the state that it meets. -/
  seen : Command → Machine → Request
  onRows : Request → List Row → Reply × List Row
  /-- The instance owns a store that stands for the rows. -/
  Owns : Heap → List Row → Prop

namespace Collection

variable (c : Collection)

/-- A command is answered like the request that it comes to, and leaves the rows that the request
leaves. -/
def AnswersAsRows : Prop :=
  ∀ (command : c.Command) (m : Machine) (rows : List c.Row), c.Owns m.heap rows →
    (c.onMachine command m).1 = .ok (c.onRows (c.seen command m) rows).1 ∧
      c.Owns (c.onMachine command m).2.heap (c.onRows (c.seen command m) rows).2

/-- The constructor leaves the rows that the initial requests leave when they are taken one after
another. If there are none it fails, and changes nothing. -/
def ConstructsAsRows (arg : Option Value) (m : Machine) : Prop :=
  match c.initial m.heap arg with
  | .error cause => (c.construct arg).on m = (.error (.fault { cause }), m)
  | .ok requests =>
    ∃ m', (c.construct arg).on m = (.ok .null, m') ∧
      c.Owns m'.heap (runSteps c.onRows requests []).2

/-- After its construction, the instance answers a run of commands like the list of rows that takes
the initial requests and then what the commands come to; and in the end it stands for the rows that
are then left. -/
def LivesAsRows (arg : Option Value) (commands : List c.Command) (m : Machine) : Prop :=
  match c.initial m.heap arg with
  | .error cause => (c.construct arg).on m = (.error (.fault { cause }), m)
  | .ok requests =>
    ∃ m', (c.construct arg).on m = (.ok .null, m') ∧
      let run := runSteps c.onMachine commands m'
      let start := (runSteps c.onRows requests []).2
      let reference := runSteps c.onRows (seenAlong c.onMachine c.seen commands m') start
      run.1 = reference.1.map .ok ∧ c.Owns run.2.heap reference.2

variable {c}

theorem livesAsRows (answers : c.AnswersAsRows) {arg : Option Value} {m : Machine}
    (constructs : c.ConstructsAsRows arg m) (commands : List c.Command) :
    c.LivesAsRows arg commands m := by
  unfold ConstructsAsRows at constructs
  unfold LivesAsRows
  cases initial : c.initial m.heap arg with
  | error cause => rwa [initial] at constructs
  | ok requests =>
    rw [initial] at constructs
    obtain ⟨m', done, owns⟩ := constructs
    exact ⟨m', done, runSteps_refines c.seen Except.ok (fun m rows => c.Owns m.heap rows)
      (fun command m rows owns => answers command m rows owns) commands owns⟩

end Collection

end ScriptCore
