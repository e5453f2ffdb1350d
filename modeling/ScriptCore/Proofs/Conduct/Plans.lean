import Mathlib.Logic.Relation
import ScriptCore.Proofs.Conduct.Protocol

/-!
What an operation does, whatever it calls back does.

Every operation of the interpreter follows a plan: it changes the machine by steps of its own, asks
for a callback, goes on with the answer, and so on until it ends. A callback that fails ends the
plan with its failure, unless the plan catches, which only the two forms of the expression language
do that turn a fault into a value. A fault of the operation's own has no trace.

A plan is laid down before anything is asked, so what it says holds over all ways back into the
interpreter at once.
-/

namespace ScriptCore

/-! ### Callbacks -/

/-- What an operation asks the interpreter for. -/
inductive Callback where
  | call (holds : List Hold) (callee : Ref .function) (args : List Value) (this : Option Value)
  | request (holds : List Hold) (name : String)
  /-- A safe point, which calls the handlers of pending signals. -/
  | safePoint (holds : List Hold)

/-- What a callback gives. -/
@[reducible]
def Callback.Answer : Callback → Type
  | call .. => Value
  | request .. => Table
  | safePoint .. => Unit

/-- How the ways back answer a callback. -/
def Reentry.answer (re : Reentry) : (asked : Callback) → Action asked.Answer
  | .call holds callee args this => re.call holds callee args this
  | .request holds name => re.request holds name
  | .safePoint holds => Invocation.safePoint { re with holds }

theorem Reentry.answer_withHolds (re : Reentry) (holds : List Hold) (asked : Callback) :
    Reentry.answer { re with holds } asked = re.answer asked := by
  cases asked <;> rfl

/-- Failures, among which are those of the interpreter. -/
class Failing (ε : Type) extends Exhaustible ε where
  ofFailure : Failure → ε
  ofFailure_exhausted : ofFailure .exhausted = exhausted
  fault? : ε → Option Fault
  fault?_eq_some_iff {e : ε} {fault : Fault} : fault? e = some fault ↔ e = ofFailure (.fault fault)
  ofFailure_inj {failure other : Failure} : ofFailure failure = ofFailure other ↔ failure = other

instance : Failing Failure where
  ofFailure := id
  ofFailure_exhausted := rfl
  fault?
    | .fault fault => some fault
    | .exhausted => none
  fault?_eq_some_iff {e fault} := by cases e <;> simp
  ofFailure_inj := Iff.rfl

instance : Failing Interruption where
  ofFailure := .failed
  ofFailure_exhausted := rfl
  fault?
    | .failed (.fault fault) => some fault
    | _ => none
  fault?_eq_some_iff {e fault} := by rcases e with _ | _ | _ <;> simp
  ofFailure_inj := by simp

/-! ### Plans -/

/-- Steps that a program makes on its own, one after another. -/
abbrev Changes : Machine → Machine → Prop := Relation.ReflTransGen Change

section Plans

variable {catching : Prop} {ε ε' α β : Type} [Failing ε] [Failing ε']

/-- What is done from a machine: an end, or a callback and what is done with each of its answers. A
plan may go on after a fault of a callback only where it may catch. -/
inductive Plan (catching : Prop) (ε α : Type) [Failing ε] : Machine → Type
  | ended {m : Machine} (result : Except ε α) (m' : Machine) (own : Changes m m')
      (untraced : ∀ fault, result = .error (Failing.ofFailure (.fault fault)) →
        fault.trace = none) : Plan catching ε α m
  | asks {m : Machine} (asked : Callback) (m' : Machine) (own : Changes m m')
      (next : asked.Answer → (after : Machine) → Plan catching ε α after) : Plan catching ε α m
  | guards {m : Machine} (allowed : catching) (asked : Callback) (m' : Machine)
      (own : Changes m m')
      (next : asked.Answer → (after : Machine) → Plan catching ε α after)
      (caught : Fault → (after : Machine) → Plan catching ε α after) : Plan catching ε α m

namespace Plan

variable {m m' : Machine}

/-- Runs a plan with ways back into the interpreter. -/
def run (re : Reentry) {m : Machine} : Plan catching ε α m → Except ε α × Machine
  | ended result m' _ _ => (result, m')
  | asks asked m' _ next =>
    match (re.answer asked).on m' with
    | (.ok a, after) => (next a after).run re
    | (.error failure, after) => (.error (Failing.ofFailure failure), after)
  | guards _ asked m' _ next caught =>
    match (re.answer asked).on m' with
    | (.ok a, after) => (next a after).run re
    | (.error (.fault fault), after) => (caught fault after).run re
    | (.error .exhausted, after) => (.error (Failing.ofFailure .exhausted), after)

/-- A plan after steps of the operation's own. -/
def after (own : Changes m m') : Plan catching ε α m' → Plan catching ε α m
  | ended result m'' more untraced => ended result m'' (own.trans more) untraced
  | asks asked m'' more next => asks asked m'' (own.trans more) next
  | guards allowed asked m'' more next caught =>
    guards allowed asked m'' (own.trans more) next caught

theorem run_after (re : Reentry) (own : Changes m m') (plan : Plan catching ε α m') :
    (plan.after own).run re = plan.run re := by
  cases plan <;> rw [after, run, run]

end Plan

/-! ### Following a plan -/

/-- Whatever the ways back into the interpreter are, the operation runs as a plan does that depends
only on what is held. -/
def Follows (catching : Prop) (op : Reentry → Run ε α) : Prop :=
  ∃ plan : List Hold → (m : Machine) → Plan catching ε α m,
    ∀ re m, (op re).on m = (plan re.holds m).run re

end Plans

end ScriptCore
