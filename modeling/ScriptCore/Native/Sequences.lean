import ScriptCore.Native.Receiver

/-!
Stack and Deque: sequences that are worked on at one end and at both ends. Taking from an empty one
gives null.
-/

namespace ScriptCore

namespace StackMethod

/-- The methods in the order in which the class defines them. -/
def all : List StackMethod := [construct, push, pop, peek, size, isEmpty, clear, toArray]

def name : StackMethod → String
  | construct => "constructor"
  | push => "push"
  | pop => "pop"
  | peek => "peek"
  | size => "size"
  | isEmpty => "isEmpty"
  | clear => "clear"
  | toArray => "toArray"

/-- The name of the method in messages. -/
def label (method : StackMethod) : String := "Stack." ++ method.name

/-- How many arguments a method takes: `push` one or more, the others none. -/
def checkCount (method : StackMethod) (got : Nat) : Except Cause Unit :=
  match method with
  | push => Arguments.atLeast method.label 1 got
  | _ => Arguments.exactly method.label 0 got

/-- Calls a method of Stack. -/
def call (method : StackMethod) (this : Option Value) (args : List Value) : Action Value := do
  let label := method.label
  Action.check (method.checkCount args.length)
  match method with
  | construct => Native.attachToReceiver label this (.stack .empty)
  | push =>
    Native.useStore .stack label this (fun store => .ofNat (store.push args).size) fun store =>
      store.push args
  | pop =>
    Native.useStore .stack label this (fun store => Native.orNull store.peek?) StackStore.pop
  | peek => Native.readStore .stack label this fun store => Native.orNull store.peek?
  | size => Native.readStore .stack label this fun store => .ofNat store.size
  | isEmpty => Native.readStore .stack label this fun store => .boolean store.isEmpty
  | clear => Native.changeStore .stack label this fun _ => .empty
  | toArray =>
    let items ← Native.readStore .stack label this StackStore.items
    Action.newArray items

end StackMethod

namespace DequeMethod

/-- The methods in the order in which the class defines them. -/
def all : List DequeMethod :=
  [construct, push, pop, unshift, shift, peekFront, peekBack, size, isEmpty, clear, toArray]

def name : DequeMethod → String
  | construct => "constructor"
  | push => "push"
  | pop => "pop"
  | unshift => "unshift"
  | shift => "shift"
  | peekFront => "peekFront"
  | peekBack => "peekBack"
  | size => "size"
  | isEmpty => "isEmpty"
  | clear => "clear"
  | toArray => "toArray"

/-- The name of the method in messages. -/
def label (method : DequeMethod) : String := "Deque." ++ method.name

/-- How many arguments a method takes: `push` and `unshift` one or more, the others none. -/
def checkCount (method : DequeMethod) (got : Nat) : Except Cause Unit :=
  match method with
  | push | unshift => Arguments.atLeast method.label 1 got
  | _ => Arguments.exactly method.label 0 got

/-- Calls a method of Deque. -/
def call (method : DequeMethod) (this : Option Value) (args : List Value) : Action Value := do
  let label := method.label
  Action.check (method.checkCount args.length)
  match method with
  | construct => Native.attachToReceiver label this (.deque .empty)
  | push =>
    Native.useStore .deque label this (fun store => .ofNat (store.pushBack args).size)
      fun store => store.pushBack args
  | unshift =>
    Native.useStore .deque label this (fun store => .ofNat (store.pushFront args).size)
      fun store => store.pushFront args
  | pop =>
    Native.useStore .deque label this (fun store => Native.orNull store.back?) DequeStore.popBack
  | shift =>
    Native.useStore .deque label this (fun store => Native.orNull store.front?)
      DequeStore.popFront
  | peekFront => Native.readStore .deque label this fun store => Native.orNull store.front?
  | peekBack => Native.readStore .deque label this fun store => Native.orNull store.back?
  | size => Native.readStore .deque label this fun store => .ofNat store.size
  | isEmpty => Native.readStore .deque label this fun store => .boolean store.isEmpty
  | clear => Native.changeStore .deque label this fun _ => .empty
  | toArray =>
    let items ← Native.readStore .deque label this DequeStore.items
    Action.newArray items

end DequeMethod

/-- The class Stack. -/
def newStackClass : Action (Ref .cls) :=
  Native.newClass "Stack" (StackMethod.all.map fun method => (method.name, .stack method))

/-- The class Deque. -/
def newDequeClass : Action (Ref .cls) :=
  Native.newClass "Deque" (DequeMethod.all.map fun method => (method.name, .deque method))

end ScriptCore
