import ScriptCore.Native.Receiver

/-!
PriorityQueue: values that leave in the order of their priorities.
-/

namespace ScriptCore

/-- The order that a constructor's argument stands for; the smallest first unless told
otherwise. -/
def QueueOrder.ofArgument (label : String) (arg : Option Value) : Except Cause QueueOrder :=
  let expected := "\"min\" or \"max\""
  match arg with
  | none | some .null => .ok .min
  | some (.text s) =>
    if s = QueueOrder.min.text then .ok .min
    else if s = QueueOrder.max.text then .ok .max
    else .error (.mismatch label expected (.text s))
  | some other => .error (.mismatch label expected other)

namespace QueueMethod

/-- The methods in the order in which the class defines them. -/
def all : List QueueMethod := [construct, push, pop, peek, size, isEmpty, clear]

def name : QueueMethod → String
  | construct => "constructor"
  | push => "push"
  | pop => "pop"
  | peek => "peek"
  | size => "size"
  | isEmpty => "isEmpty"
  | clear => "clear"

/-- The name of the method in messages. -/
def label (method : QueueMethod) : String := "PriorityQueue." ++ method.name

/-- How many arguments a method takes. -/
def checkCount (method : QueueMethod) (got : Nat) : Except Cause Unit :=
  match method with
  | construct => Arguments.between method.label 0 1 got
  | push => Arguments.exactly method.label 2 got
  | _ => Arguments.exactly method.label 0 got

/-- Calls a method of PriorityQueue. -/
def call (method : QueueMethod) (this : Option Value) (args : List Value) : Action Value := do
  let label := method.label
  Action.check (method.checkCount args.length)
  match method with
  | construct =>
    let order ← Action.check (QueueOrder.ofArgument label args[0]?)
    Native.attachToReceiver label this (.priority (.empty order))
  | push =>
    let priority ← Action.check (Arguments.number label args 1)
    let push (store : PriorityStore) := store.push (args.getD 0 .null) priority
    Native.useStore .priority label this (fun store => .ofNat (push store).size) push
  | pop =>
    Native.useStore .priority label this (fun store => Native.orNull store.peek?) PriorityStore.pop
  | peek => Native.readStore .priority label this fun store => Native.orNull store.peek?
  | size => Native.readStore .priority label this fun store => .ofNat store.size
  | isEmpty => Native.readStore .priority label this fun store => .boolean store.isEmpty
  | clear => Native.changeStore .priority label this PriorityStore.clear

end QueueMethod

/-- The class PriorityQueue. -/
def newQueueClass : Action (Ref .cls) :=
  Native.newClass "PriorityQueue" (QueueMethod.all.map fun method => (method.name, .queue method))

end ScriptCore
