import ScriptCore.Native.Sequences
import ScriptCore.Proofs.Collections.Queues

/-!
Stack and Deque answer like one plain sequence.

The calls of both classes come to the same few requests on a sequence of values, most of them at
one of its two ends. An instance that is constructed as a Stack or as a Deque answers every run of
calls like the sequence answers the requests; so two instances of either class whose calls come to
the same requests answer alike. Seen from its other end the sequence answers the mirrored requests
with the mirrored answers, and over any run what came is what is still there and what left.
-/

namespace ScriptCore

/-! ### A plain sequence -/

/-- One of the two ends of a sequence. -/
inductive SequenceEnd where
  | front
  | back
  deriving DecidableEq, Repr

namespace SequenceEnd

variable (place : SequenceEnd) (items : List Value)

def opposite : SequenceEnd → SequenceEnd
  | front => back
  | back => front

/-- The item at an end. -/
def item? : Option Value :=
  match place with
  | front => items.head?
  | back => items.getLast?

/-- The items but for the one at an end. -/
def without : List Value :=
  match place with
  | front => items.tail
  | back => items.dropLast

/-- The items with further values at an end, which keep their order. -/
def adding (values : List Value) : List Value :=
  match place with
  | front => values ++ items
  | back => items ++ values

theorem item?_reverse : place.opposite.item? items.reverse = place.item? items := by
  cases place
  · exact List.getLast?_reverse
  · exact List.head?_reverse

theorem without_reverse :
    place.opposite.without items.reverse = (place.without items).reverse := by
  cases place
  · exact List.dropLast_reverse
  · exact List.tail_reverse

theorem adding_reverse (values : List Value) :
    place.opposite.adding items.reverse values.reverse = (place.adding items values).reverse := by
  cases place
  · exact List.reverse_append.symm
  · exact List.reverse_append.symm

theorem length_adding (values : List Value) :
    (place.adding items values).length = items.length + values.length := by
  cases place
  · exact List.length_append.trans (Nat.add_comm _ _)
  · exact List.length_append

theorem perm_adding (values : List Value) :
    (place.adding items values).Perm (items ++ values) := by
  cases place
  · exact List.perm_append_comm
  · exact .refl _

/-- What is taken from an end and what is then left is what was there. -/
theorem perm_without : (place.without items ++ (place.item? items).toList).Perm items := by
  cases place with
  | front =>
    cases items with
    | nil => exact .refl _
    | cons first rest => exact List.perm_append_comm
  | back =>
    obtain rfl | nonempty := eq_or_ne items []
    · exact .refl _
    · rw [without, item?, List.getLast?_eq_getLast_of_ne_nil nonempty, Option.toList_some,
        List.dropLast_append_getLast nonempty]

end SequenceEnd

/-- A call on a sequence of values. -/
inductive SequenceRequest where
  | add (place : SequenceEnd) (values : List Value)
  | take (place : SequenceEnd)
  | peek (place : SequenceEnd)
  | size
  | isEmpty
  | clear
  | listing
  | meanwhile

/-- What a sequence answers: a reply, or the end at which nothing was given to add. -/
abbrev SequenceAnswer : Type := Except SequenceEnd Reply

namespace SequenceRequest

/-- Answers a request from a sequence. Adding gives back how many items there are then; adding
nothing is refused. Taking from an empty sequence gives null, and so does looking at its ends. -/
def onItems (request : SequenceRequest) (items : List Value) : SequenceAnswer × List Value :=
  match request with
  | add place [] => (.error place, items)
  | add place (first :: rest) =>
    (.ok (.value (.ofNat (items.length + (rest.length + 1)))), place.adding items (first :: rest))
  | take place => (.ok (.value ((place.item? items).getD .null)), place.without items)
  | peek place => (.ok (.value ((place.item? items).getD .null)), items)
  | size => (.ok (.value (.ofNat items.length)), items)
  | isEmpty => (.ok (.value (.boolean (decide (items = [])))), items)
  | clear => (.ok (.value .null), [])
  | listing => (.ok (.listing items), items)
  | meanwhile => (.ok .nothing, items)

/-! ### From the other end -/

/-- The request at the other end. What is added is added in the reverse order. -/
def mirror : SequenceRequest → SequenceRequest
  | add place values => add place.opposite values.reverse
  | take place => take place.opposite
  | peek place => peek place.opposite
  | request => request

end SequenceRequest

/-- A reply with its listing reversed. -/
def Reply.mirror : Reply → Reply
  | .listing items => .listing items.reverse
  | reply => reply

/-- The answer as it is told from the other end. -/
def SequenceAnswer.mirror : SequenceAnswer → SequenceAnswer
  | .ok reply => .ok reply.mirror
  | .error place => .error place.opposite

namespace SequenceRequest

/-- The reversed sequence answers the mirrored request with the mirrored answer, and stays
reversed. -/
theorem onItems_mirror (request : SequenceRequest) (items : List Value) :
    request.mirror.onItems items.reverse =
      ((request.onItems items).1.mirror, (request.onItems items).2.reverse) := by
  cases request with
  | add place values =>
    cases values with
    | nil => rfl
    | cons first rest =>
      obtain ⟨last, others, backwards⟩ := List.exists_cons_of_ne_nil
        (List.reverse_ne_nil_iff.2 (List.cons_ne_nil first rest))
      have sizes : others.length = rest.length := by
        simpa using (congrArg List.length backwards).symm
      have turned := place.adding_reverse items (first :: rest)
      rw [backwards] at turned
      simp only [mirror, backwards, onItems, turned, sizes, List.length_reverse]
      rfl
  | take place =>
    simp only [mirror, onItems, place.item?_reverse, place.without_reverse]
    rfl
  | peek place =>
    simp only [mirror, onItems, place.item?_reverse]
    rfl
  | size | isEmpty | clear | listing | meanwhile =>
    simp [mirror, onItems, SequenceAnswer.mirror, Reply.mirror]

/-- A run from the other end gives the mirrored answers and leaves the sequence reversed. -/
theorem runSteps_mirror (requests : List SequenceRequest) (items : List Value) :
    runSteps onItems (requests.map mirror) items.reverse =
      ((runSteps onItems requests items).1.map SequenceAnswer.mirror,
        (runSteps onItems requests items).2.reverse) := by
  induction requests generalizing items with
  | nil => rfl
  | cons request rest ih =>
    simp only [List.map_cons, runSteps, onItems_mirror, ih]

/-! ### What comes and what leaves -/

/-- The values that come with a request. -/
def arriving : SequenceRequest → List Value
  | add _ values => values
  | _ => []

/-- The values that leave with a request. -/
def leaving (request : SequenceRequest) (items : List Value) : List Value :=
  match request with
  | take place => (place.item? items).toList
  | clear => items
  | _ => []

/-- A request leaves the items that were there and those that came, but for those that left. -/
theorem perm_onItems (request : SequenceRequest) (items : List Value) :
    ((request.onItems items).2 ++ request.leaving items).Perm (items ++ request.arriving) := by
  cases request with
  | add place values =>
    cases values with
    | nil => exact .refl _
    | cons first rest =>
      simpa [onItems, leaving, arriving] using place.perm_adding items (first :: rest)
  | take place => simpa [onItems, leaving, arriving] using place.perm_without items
  | peek | size | isEmpty | clear | listing | meanwhile => simp [onItems, leaving, arriving]

end SequenceRequest

/-! ### Stores that hold a sequence -/

/-- The instance owns a store of a type that holds the items. -/
def Heap.OwnsItems {σ : Type} (h : Heap) (type : StoreType σ) (itemsOf : σ → List Value)
    (r : Ref .inst) (items : List Value) : Prop :=
  ∃ store : σ, h.Owns r (type.inject store) ∧ itemsOf store = items

section Stores

variable {σ : Type} {type : StoreType σ} (lawful : ∀ s, type.project (type.inject s) = some s)
  {itemsOf : σ → List Value} {r : Ref .inst} {m : Machine} {store : σ}
  (owns : m.heap.Owns r (type.inject store)) {call : Action Value} {label : String}

include lawful owns

/-- A call that reads from the store and then changes it. -/
theorem Reading.answers_useStore {view : σ → Value} {step : σ → σ} {v : Value}
    {left : List Value}
    (same : call.on m = (Native.useStore type label (some (.inst r)) view step).on m)
    (tells : view store = v) (leaves : itemsOf (step store) = left) :
    (asValue.answer call m).1 = .ok (.value v) ∧
      (asValue.answer call m).2.heap.OwnsItems type itemsOf r left := by
  rw [answer_of_ok _ (same.trans (Native.on_useStore lawful owns label view step))]
  refine ⟨?_, step store, Heap.owns_changeStore lawful owns step, leaves⟩
  rw [← tells]
  rfl

/-- A call that adds values at an end and gives back how many items there are then. -/
theorem Reading.answers_adding {size : σ → Nat} {step : σ → σ} {place : SequenceEnd}
    {values : List Value} (sized : ∀ store, size store = (itemsOf store).length)
    (adds : ∀ store, itemsOf (step store) = place.adding (itemsOf store) values)
    (same : call.on m =
      (Native.useStore type label (some (.inst r)) (fun store => .ofNat (size (step store)))
        step).on m) :
    (asValue.answer call m).1 =
        .ok (.value (.ofNat ((itemsOf store).length + values.length))) ∧
      (asValue.answer call m).2.heap.OwnsItems type itemsOf r
        (place.adding (itemsOf store) values) := by
  have more : size (step store) = (itemsOf store).length + values.length := by
    rw [sized, adds, SequenceEnd.length_adding]
  exact answers_useStore lawful owns same (congrArg Value.ofNat more) (adds store)

/-- A call that reads from the store. -/
theorem Reading.answers_readStore {view : σ → Value} {v : Value}
    (same : call.on m = (Native.readStore type label (some (.inst r)) view).on m)
    (tells : view store = v) :
    (asValue.answer call m).1 = .ok (.value v) ∧
      (asValue.answer call m).2.heap.OwnsItems type itemsOf r (itemsOf store) := by
  rw [answer_of_ok _ (same.trans (Native.on_readStore lawful owns label view))]
  refine ⟨?_, store, owns, rfl⟩
  rw [← tells]
  rfl

/-- A call that lists the store. -/
theorem Reading.answers_listing
    (same : call.on m = (Native.readStore type label (some (.inst r)) itemsOf >>=
      Action.newArray : Action Value).on m) :
    (asListing.answer call m).1 = .ok (.listing (itemsOf store)) ∧
      (asListing.answer call m).2.heap.OwnsItems type itemsOf r (itemsOf store) := by
  rw [Run.on_bind_of_ok (Native.on_readStore lawful owns label itemsOf)] at same
  rw [answer_newArray same]
  exact ⟨rfl, store, owns, rfl⟩

end Stores

/-! ### Instances that hold a sequence -/

/-- An instance that is to answer like a sequence. -/
structure SequenceInstance where
  Command : Type
  /-- The constructor. -/
  construct : Action Value
  onMachine : Command → Machine → Except Failure Reply × Machine
  /-- The request that a command comes to, in any state. -/
  request : Command → SequenceRequest
  /-- The name in messages of the method that adds at an end. -/
  label : SequenceEnd → String
  /-- The instance owns a store with the items. -/
  Owns : Heap → List Value → Prop

namespace SequenceInstance

variable (c : SequenceInstance)

/-- An answer as the instance tells it: adding nothing misses one argument or more. -/
def tell : SequenceAnswer → Except Failure Reply
  | .ok reply => .ok reply
  | .error place => .error (.fault { cause := .arity (c.label place) 1 0 true })

/-- A command is answered like the request that it comes to, and leaves the items that the request
leaves. -/
def AnswersAsSequence : Prop :=
  ∀ (command : c.Command) (m : Machine) (items : List Value), c.Owns m.heap items →
    (c.onMachine command m).1 = c.tell ((c.request command).onItems items).1 ∧
      c.Owns (c.onMachine command m).2.heap ((c.request command).onItems items).2

/-- After its construction, the instance answers every run of commands like the empty sequence
answers what they come to, and in the end it holds the items that are then left. -/
def LivesAsSequence (m : Machine) : Prop :=
  ∃ m', c.construct.on m = (.ok .null, m') ∧
    ∀ commands : List c.Command,
      let run := runSteps c.onMachine commands m'
      let plain := runSteps SequenceRequest.onItems (commands.map c.request) []
      run.1 = plain.1.map c.tell ∧ c.Owns run.2.heap plain.2

/-- Adding nothing fails, whatever the instance holds, and changes nothing at all. -/
def RefusesNothing : Prop :=
  ∀ (command : c.Command) (place : SequenceEnd) (m : Machine),
    c.request command = .add place [] → c.onMachine command m = (c.tell (.error place), m)

variable {c}

theorem livesAsSequence {m m' : Machine} (answers : c.AnswersAsSequence)
    (constructed : c.construct.on m = (.ok .null, m')) (owns : c.Owns m'.heap []) :
    c.LivesAsSequence m := by
  refine ⟨m', constructed, ?_⟩
  intro commands
  have refined := runSteps_refines (fun command _ => c.request command) c.tell
    (fun (m : Machine) items => c.Owns m.heap items)
    (fun command m items owns => answers command m items owns) commands owns
  rwa [seenAlong_eq_map] at refined

end SequenceInstance

/-! ### Deque -/

/-- What is done to a Deque after its construction. -/
inductive DequeCommand (r : Ref .inst) where
  | push (values : List Value)
  | unshift (values : List Value)
  | pop
  | shift
  | peekFront
  | peekBack
  | size
  | isEmpty
  | clear
  | toArray
  | meanwhile (interlude : Interlude r)

namespace DequeStore

theorem lawful (store : DequeStore) :
    StoreType.deque.project (StoreType.deque.inject store) = some store := rfl

theorem isEmpty_eq (store : DequeStore) : store.isEmpty = decide (store.items = []) := by
  rw [isEmpty, store.size_eq_length]
  cases store.items <;> rfl

end DequeStore

namespace DequeCommand

variable {r : Ref .inst}

def request (command : DequeCommand r) : SequenceRequest :=
  match command with
  | push values => .add .back values
  | unshift values => .add .front values
  | pop => .take .back
  | shift => .take .front
  | peekFront => .peek .front
  | peekBack => .peek .back
  | size => .size
  | isEmpty => .isEmpty
  | clear => .clear
  | toArray => .listing
  | meanwhile _ => .meanwhile

/-- How a command is carried out on the Deque. -/
def onMachine (command : DequeCommand r) (m : Machine) : Except Failure Reply × Machine :=
  match command with
  | push values => Reading.asValue.answer (DequeMethod.push.call (some (.inst r)) values) m
  | unshift values => Reading.asValue.answer (DequeMethod.unshift.call (some (.inst r)) values) m
  | pop => Reading.asValue.answer (DequeMethod.pop.call (some (.inst r)) []) m
  | shift => Reading.asValue.answer (DequeMethod.shift.call (some (.inst r)) []) m
  | peekFront => Reading.asValue.answer (DequeMethod.peekFront.call (some (.inst r)) []) m
  | peekBack => Reading.asValue.answer (DequeMethod.peekBack.call (some (.inst r)) []) m
  | size => Reading.asValue.answer (DequeMethod.size.call (some (.inst r)) []) m
  | isEmpty => Reading.asValue.answer (DequeMethod.isEmpty.call (some (.inst r)) []) m
  | clear => Reading.asValue.answer (DequeMethod.clear.call (some (.inst r)) []) m
  | toArray => Reading.asListing.answer (DequeMethod.toArray.call (some (.inst r)) []) m
  | meanwhile interlude => (.ok .nothing, interlude.change m)

/-- A Deque as an instance that holds a sequence. -/
def sequence (r : Ref .inst) : SequenceInstance where
  Command := DequeCommand r
  construct := DequeMethod.construct.call (some (.inst r)) []
  onMachine := onMachine
  request := request
  label
    | .front => DequeMethod.unshift.label
    | .back => DequeMethod.push.label
  Owns h items := h.OwnsItems .deque DequeStore.items r items

theorem answersAsSequence (r : Ref .inst) : (sequence r).AnswersAsSequence := by
  intro (command : DequeCommand r) m items ⟨store, owns, same⟩
  subst same
  cases command with
  | push values =>
    cases values with
    | nil => exact ⟨rfl, store, owns, rfl⟩
    | cons first rest =>
      have adds (store : DequeStore) : (store.pushBack (first :: rest)).items =
          SequenceEnd.back.adding store.items (first :: rest) := store.items_pushBack _
      exact Reading.answers_adding DequeStore.lawful owns DequeStore.size_eq_length adds (by rfl)
  | unshift values =>
    cases values with
    | nil => exact ⟨rfl, store, owns, rfl⟩
    | cons first rest =>
      have adds (store : DequeStore) : (store.pushFront (first :: rest)).items =
          SequenceEnd.front.adding store.items (first :: rest) := store.items_pushFront _
      exact Reading.answers_adding DequeStore.lawful owns DequeStore.size_eq_length adds (by rfl)
  | pop =>
    exact Reading.answers_useStore DequeStore.lawful owns (by rfl)
      (congrArg Native.orNull store.back?_eq_getLast?) store.items_popBack
  | shift =>
    exact Reading.answers_useStore DequeStore.lawful owns (by rfl)
      (congrArg Native.orNull store.front?_eq_head?) store.items_popFront
  | peekFront =>
    exact Reading.answers_readStore DequeStore.lawful owns (by rfl)
      (congrArg Native.orNull store.front?_eq_head?)
  | peekBack =>
    exact Reading.answers_readStore DequeStore.lawful owns (by rfl)
      (congrArg Native.orNull store.back?_eq_getLast?)
  | size =>
    exact Reading.answers_readStore DequeStore.lawful owns (by rfl)
      (congrArg Value.ofNat store.size_eq_length)
  | isEmpty =>
    exact Reading.answers_readStore DequeStore.lawful owns (by rfl)
      (congrArg Value.boolean store.isEmpty_eq)
  | clear => exact Reading.answers_useStore DequeStore.lawful owns (by rfl) rfl rfl
  | toArray =>
    have listed : (DequeMethod.toArray.call (some (.inst r)) []).on m =
        (Native.readStore .deque DequeMethod.toArray.label (some (.inst r)) DequeStore.items >>=
          Action.newArray : Action Value).on m := rfl
    exact (Reading.answers_listing DequeStore.lawful owns listed :)
  | meanwhile interlude => exact ⟨rfl, store, (interlude.keeps m).trans owns, rfl⟩

end DequeCommand

/-! ### Stack -/

/-- What is done to a Stack after its construction. -/
inductive StackCommand (r : Ref .inst) where
  | push (values : List Value)
  | pop
  | peek
  | size
  | isEmpty
  | clear
  | toArray
  | meanwhile (interlude : Interlude r)

namespace StackStore

theorem lawful (store : StackStore) :
    StoreType.stack.project (StoreType.stack.inject store) = some store := rfl

theorem isEmpty_eq (store : StackStore) : store.isEmpty = decide (store.items = []) := by
  rw [isEmpty, store.size_eq_length]
  cases store.items <;> rfl

end StackStore

namespace StackCommand

variable {r : Ref .inst}

def request (command : StackCommand r) : SequenceRequest :=
  match command with
  | push values => .add .back values
  | pop => .take .back
  | peek => .peek .back
  | size => .size
  | isEmpty => .isEmpty
  | clear => .clear
  | toArray => .listing
  | meanwhile _ => .meanwhile

/-- How a command is carried out on the Stack. -/
def onMachine (command : StackCommand r) (m : Machine) : Except Failure Reply × Machine :=
  match command with
  | push values => Reading.asValue.answer (StackMethod.push.call (some (.inst r)) values) m
  | pop => Reading.asValue.answer (StackMethod.pop.call (some (.inst r)) []) m
  | peek => Reading.asValue.answer (StackMethod.peek.call (some (.inst r)) []) m
  | size => Reading.asValue.answer (StackMethod.size.call (some (.inst r)) []) m
  | isEmpty => Reading.asValue.answer (StackMethod.isEmpty.call (some (.inst r)) []) m
  | clear => Reading.asValue.answer (StackMethod.clear.call (some (.inst r)) []) m
  | toArray => Reading.asListing.answer (StackMethod.toArray.call (some (.inst r)) []) m
  | meanwhile interlude => (.ok .nothing, interlude.change m)

/-- A Stack as an instance that holds a sequence. It adds at the back alone. -/
def sequence (r : Ref .inst) : SequenceInstance where
  Command := StackCommand r
  construct := StackMethod.construct.call (some (.inst r)) []
  onMachine := onMachine
  request := request
  label _ := StackMethod.push.label
  Owns h items := h.OwnsItems .stack StackStore.items r items

theorem answersAsSequence (r : Ref .inst) : (sequence r).AnswersAsSequence := by
  intro (command : StackCommand r) m items ⟨store, owns, same⟩
  subst same
  cases command with
  | push values =>
    cases values with
    | nil => exact ⟨rfl, store, owns, rfl⟩
    | cons first rest =>
      have adds (store : StackStore) : (store.push (first :: rest)).items =
          SequenceEnd.back.adding store.items (first :: rest) := store.items_push _
      exact Reading.answers_adding StackStore.lawful owns StackStore.size_eq_length adds (by rfl)
  | pop =>
    exact Reading.answers_useStore StackStore.lawful owns (by rfl)
      (congrArg Native.orNull store.peek?_eq_getLast?) store.items_pop
  | peek =>
    exact Reading.answers_readStore StackStore.lawful owns (by rfl)
      (congrArg Native.orNull store.peek?_eq_getLast?)
  | size =>
    exact Reading.answers_readStore StackStore.lawful owns (by rfl)
      (congrArg Value.ofNat store.size_eq_length)
  | isEmpty =>
    exact Reading.answers_readStore StackStore.lawful owns (by rfl)
      (congrArg Value.boolean store.isEmpty_eq)
  | clear => exact Reading.answers_useStore StackStore.lawful owns (by rfl) rfl rfl
  | toArray =>
    have listed : (StackMethod.toArray.call (some (.inst r)) []).on m =
        (Native.readStore .stack StackMethod.toArray.label (some (.inst r)) StackStore.items >>=
          Action.newArray : Action Value).on m := rfl
    exact (Reading.answers_listing StackStore.lawful owns listed :)
  | meanwhile interlude => exact ⟨rfl, store, (interlude.keeps m).trans owns, rfl⟩

end StackCommand

/-! ### Construction -/

theorem DequeCommand.livesAsSequence {r : Ref .inst} {m : Machine} (bare : m.heap.Bare r) :
    (sequence r).LivesAsSequence m := by
  have constructed := Native.on_attachToReceiver bare DequeMethod.construct.label (.deque .empty)
  exact SequenceInstance.livesAsSequence (answersAsSequence r) constructed
    ⟨.empty, Heap.owns_setResource bare _, rfl⟩

theorem StackCommand.livesAsSequence {r : Ref .inst} {m : Machine} (bare : m.heap.Bare r) :
    (sequence r).LivesAsSequence m := by
  have constructed := Native.on_attachToReceiver bare StackMethod.construct.label (.stack .empty)
  exact SequenceInstance.livesAsSequence (answersAsSequence r) constructed
    ⟨.empty, Heap.owns_setResource bare _, rfl⟩

/-! ### Adding nothing -/

theorem DequeCommand.refusesNothing (r : Ref .inst) : (sequence r).RefusesNothing := by
  intro (command : DequeCommand r) place m comes
  cases command with
  | push values | unshift values =>
    obtain ⟨rfl, rfl⟩ := SequenceRequest.add.inj comes
    rfl
  | pop | shift | peekFront | peekBack | size | isEmpty | clear | toArray | meanwhile =>
    exact nomatch comes

theorem StackCommand.refusesNothing (r : Ref .inst) : (sequence r).RefusesNothing := by
  intro (command : StackCommand r) place m comes
  cases command with
  | push values =>
    obtain ⟨rfl, rfl⟩ := SequenceRequest.add.inj comes
    rfl
  | pop | peek | size | isEmpty | clear | toArray | meanwhile => exact nomatch comes

/-! ### Runs that answer alike -/

/-- The same call at the other end of a Deque, with its arguments in the reverse order. -/
inductive DequeCommand.Mirrors {r s : Ref .inst} : DequeCommand r → DequeCommand s → Prop where
  | push (values : List Value) : Mirrors (.push values) (.unshift values.reverse)
  | unshift (values : List Value) : Mirrors (.unshift values) (.push values.reverse)
  | pop : Mirrors .pop .shift
  | shift : Mirrors .shift .pop
  | peekFront : Mirrors .peekFront .peekBack
  | peekBack : Mirrors .peekBack .peekFront
  | size : Mirrors .size .size
  | isEmpty : Mirrors .isEmpty .isEmpty
  | clear : Mirrors .clear .clear
  | toArray : Mirrors .toArray .toArray
  | meanwhile (here : Interlude r) (there : Interlude s) :
    Mirrors (.meanwhile here) (.meanwhile there)

/-- The same call on a Deque and on a Stack. -/
inductive DequeCommand.LikeStack {r s : Ref .inst} : DequeCommand r → StackCommand s → Prop where
  | push (values : List Value) : LikeStack (.push values) (.push values)
  | pop : LikeStack .pop .pop
  | peek : LikeStack .peekBack .peek
  | size : LikeStack .size .size
  | isEmpty : LikeStack .isEmpty .isEmpty
  | clear : LikeStack .clear .clear
  | toArray : LikeStack .toArray .toArray
  | meanwhile (here : Interlude r) (there : Interlude s) :
    LikeStack (.meanwhile here) (.meanwhile there)

namespace SequenceInstance

/-- Two instances, each constructed in its machine, answer related runs of commands alike, up to a
turn of the answers. -/
def AnswersLike (c d : SequenceInstance) (m n : Machine) (related : c.Command → d.Command → Prop)
    (turn : SequenceAnswer → SequenceAnswer) : Prop :=
  ∃ m' n', c.construct.on m = (.ok .null, m') ∧ d.construct.on n = (.ok .null, n') ∧
    ∀ commands others, List.Forall₂ related commands others →
      ∃ answers : List SequenceAnswer,
        (runSteps c.onMachine commands m').1 = answers.map c.tell ∧
          (runSteps d.onMachine others n').1 = (answers.map turn).map d.tell

variable {c d : SequenceInstance} {m n : Machine} {related : c.Command → d.Command → Prop}
  {turn : SequenceAnswer → SequenceAnswer}

/-- Commands whose requests are related by a function that turns the answers of every run. -/
theorem answersLike (lives : c.LivesAsSequence m) (lives' : d.LivesAsSequence n)
    (onRequests : SequenceRequest → SequenceRequest)
    (comes : ∀ command other, related command other →
      d.request other = onRequests (c.request command))
    (turns : ∀ requests, (runSteps SequenceRequest.onItems (requests.map onRequests) []).1 =
      (runSteps SequenceRequest.onItems requests []).1.map turn) :
    c.AnswersLike d m n related turn := by
  obtain ⟨m', constructed, answers⟩ := lives
  obtain ⟨n', constructed', answers'⟩ := lives'
  refine ⟨m', n', constructed, constructed', ?_⟩
  intro commands others alike
  have requests : others.map d.request = (commands.map c.request).map onRequests := by
    induction alike with
    | nil => rfl
    | cons head _ ih => simp only [List.map_cons, comes _ _ head, ih]
  refine ⟨_, (answers commands).1, ?_⟩
  rw [(answers' others).1, requests, turns]

end SequenceInstance

theorem DequeCommand.Mirrors.request {r s : Ref .inst} {command : DequeCommand r}
    {other : DequeCommand s} (mirrors : Mirrors command other) :
    other.request = command.request.mirror := by
  cases mirrors <;> rfl

theorem DequeCommand.LikeStack.request {r s : Ref .inst} {command : DequeCommand r}
    {other : StackCommand s} (like : LikeStack command other) :
    other.request = command.request := by
  cases like <;> rfl

/-- A new Deque and a new Stack answer every run of calls like one plain sequence, and adding
nothing fails and changes nothing. Used from its other end a Deque gives the same answers with its
listings reversed, and used at the back alone it answers like a Stack. Over any run what came is
what is still there and what left, each value once. -/
theorem sequences_livesAsSequences {r s : Ref .inst} {m n : Machine} (bare : m.heap.Bare r)
    (bare' : n.heap.Bare s) :
    ((DequeCommand.sequence r).LivesAsSequence m ∧ (DequeCommand.sequence r).RefusesNothing) ∧
    ((StackCommand.sequence s).LivesAsSequence n ∧ (StackCommand.sequence s).RefusesNothing) ∧
    (DequeCommand.sequence r).AnswersLike (DequeCommand.sequence s) m n DequeCommand.Mirrors
      SequenceAnswer.mirror ∧
    (DequeCommand.sequence r).AnswersLike (StackCommand.sequence s) m n DequeCommand.LikeStack id ∧
    ∀ requests : List SequenceRequest,
      ((runSteps SequenceRequest.onItems requests []).2 ++
          (seenAlong SequenceRequest.onItems SequenceRequest.leaving requests []).flatten).Perm
        (requests.flatMap SequenceRequest.arriving) := by
  have deque := DequeCommand.livesAsSequence bare
  have mirrored := DequeCommand.livesAsSequence bare'
  have stack := StackCommand.livesAsSequence bare'
  refine ⟨⟨deque, DequeCommand.refusesNothing r⟩, ⟨stack, StackCommand.refusesNothing s⟩, ?_, ?_,
    fun requests => perm_runSteps SequenceRequest.perm_onItems requests []⟩
  · exact SequenceInstance.answersLike deque mirrored SequenceRequest.mirror
      (fun _ _ mirrors => mirrors.request)
      (fun requests => congrArg Prod.fst (SequenceRequest.runSteps_mirror requests []))
  · exact SequenceInstance.answersLike deque stack id (fun _ _ like => like.request)
      (fun requests => by simp)

/-- Calls at both ends of a new Deque, on it empty, and with nothing to add. -/
theorem sequences_livesAsSequences_both_ends :
    bareMachine.heap.Bare ⟨0⟩ ∧
      ∃ m', (DequeMethod.construct.call (some (.inst ⟨0⟩)) []).on bareMachine = (.ok .null, m') ∧
        (runSteps DequeCommand.onMachine
          ([.pop, .push [.null, .boolean true], .unshift [.text "a", .text "b"], .unshift [],
            .shift, .toArray, .pop, .peekBack, .clear, .isEmpty] : List (DequeCommand ⟨0⟩)) m').1 =
          [.ok (.value .null), .ok (.value (.ofNat 2)), .ok (.value (.ofNat 4)),
            .error (.fault { cause := .arity "Deque.unshift" 1 0 true }),
            .ok (.value (.text "a")), .ok (.listing [.text "b", .null, .boolean true]),
            .ok (.value (.boolean true)), .ok (.value .null), .ok (.value .null),
            .ok (.value (.boolean true))] := by
  have bare : bareMachine.heap.Bare ⟨0⟩ := rfl
  obtain ⟨⟨⟨m', constructed, answers⟩, -⟩, -⟩ := sequences_livesAsSequences bare bare
  exact ⟨bare, m', constructed, (answers _).1⟩

end ScriptCore
