import Mathlib.Data.List.Basic
import ScriptCore.Machine

/-!
What the journal of a machine says.

The calls, the dispatch and the initialisations that are under way at a moment can be read off the
events before it, and so can the registry. A history is lawful if each of its events is one that
can happen after those before it.
-/

namespace ScriptCore

/-! ### What is under way -/

/-- Something that was begun and is not over. An initialisation is told from others of its package
by the number of events before it started. -/
inductive Activity where
  | call (callee : Ref .function)
  | dispatch
  | initialization (name : String) (since : Nat)
  deriving DecidableEq, Repr

namespace Activity

def isCall : Activity → Bool
  | call _ => true
  | _ => false

end Activity

/-- What is under way after events, innermost first. -/
def underWay : List Event → List Activity
  | [] => []
  | .entered callee _ :: past => .call callee :: underWay past
  | .dispatchBegan :: past => .dispatch :: underWay past
  | .initializerStarted name _ :: past => .initialization name past.length :: underWay past
  | .left _ _ :: past => (underWay past).tail
  | .dispatchEnded :: past => (underWay past).tail
  | .initializerEnded _ _ :: past => (underWay past).tail
  | _ :: past => underWay past

/-- The number of calls that were entered and not left. -/
def active (events : List Event) : Nat := (underWay events).countP Activity.isCall

/-- The depth of the calls as the events tell it. -/
def toldDepth : List Event → Nat
  | [] => 0
  | .entered _ depth :: _ => depth
  | .left _ depth :: _ => depth - 1
  | .refused _ depth :: _ => depth
  | _ :: past => toldDepth past

/-- The registry after events. -/
def Registry.after : List Event → Registry
  | [] => .builtin
  | .packageRegistered name initializer :: past => (after past).register name initializer
  | .symbolRegistered package name value :: past => (after past).registerSymbol package name value
  | .initializerStarted name _ :: past => ((after past).request name).2
  | .initializerEnded name (.ok table) :: past => ((after past).complete name table).2
  | .initializerEnded name (.error fault) :: past => (after past).abandon name fault
  | _ :: past => after past

/-! ### Lawful histories -/

namespace Event

/-- The event can happen after those given, under the settings. -/
def Fits (c : Config) (past : List Event) : Event → Prop
  | entered _ depth => depth = active past + 1 ∧ c.maxCallDepth ≠ some (active past)
  | left callee depth => depth = active past ∧ (underWay past).head? = some (.call callee)
  | refused _ depth => depth = active past ∧ c.maxCallDepth = some (active past)
  | dispatchBegan => .dispatch ∉ underWay past
  | taken _ _ => (underWay past).head? = some .dispatch
  | dispatchEnded => (underWay past).head? = some .dispatch
  | initializerStarted name initializer =>
    ∃ table, ((Registry.after past).request name).1 = .start initializer table
  | initializerEnded name _ => ∃ since, (underWay past).head? = some (.initialization name since)
  | raised _ | packageRegistered _ _ | symbolRegistered _ _ _ => True

/-- If the last event took a signal that has a handler, this one enters or refuses the handler. -/
def Delivers (past : List Event) (event : Event) : Prop :=
  ∀ s f earlier, past = .taken s (some f) :: earlier →
    ∃ depth, event = .entered f depth ∨ event = .refused f depth

end Event

/-- Each event fits those before it. -/
inductive Lawful (c : Config) : List Event → Prop
  | nil : Lawful c []
  | cons {event : Event} {past : List Event} (before : Lawful c past) (fits : event.Fits c past)
      (delivers : event.Delivers past) : Lawful c (event :: past)

variable {c : Config} {events later past : List Event} {event : Event}

namespace Lawful

theorem of_append (lawful : Lawful c (later ++ past)) : Lawful c past := by
  induction later with
  | nil => exact lawful
  | cons event rest ih =>
    cases lawful with
    | cons before fits delivers => exact ih before

theorem of_suffix (lawful : Lawful c events) (part : past <:+ events) : Lawful c past := by
  obtain ⟨later, rfl⟩ := part
  exact lawful.of_append

theorem tail (lawful : Lawful c (event :: past)) : Lawful c past := by
  cases lawful with
  | cons before fits delivers => exact before

theorem head (lawful : Lawful c (event :: past)) : event.Fits c past := by
  cases lawful with
  | cons before fits delivers => exact fits

theorem fits (lawful : Lawful c (later ++ event :: past)) : event.Fits c past :=
  lawful.of_append.head

theorem delivers (lawful : Lawful c (later ++ event :: past)) : event.Delivers past := by
  cases lawful.of_append with
  | cons before fits delivers => exact delivers

end Lawful

/-- The end of a call leaves one call fewer active. -/
theorem active_left {callee : Ref .function}
    (inside : (underWay past).head? = some (.call callee)) (depth : Nat) :
    active past = active (.left callee depth :: past) + 1 := by
  obtain ⟨outer, here⟩ := List.head?_eq_some_iff.1 inside
  have rest : underWay (.left callee depth :: past) = outer := by
    rw [underWay, here, List.tail_cons]
  rw [active, active, rest, here]
  exact List.countP_cons_of_pos rfl

/-- The end of something that is no call leaves as many calls active. -/
theorem active_tail {activity : Activity} (other : activity.isCall = false)
    (inside : (underWay past).head? = some activity) :
    (underWay past).tail.countP Activity.isCall = active past := by
  obtain ⟨outer, here⟩ := List.head?_eq_some_iff.1 inside
  rw [active, here, List.tail_cons, List.countP_cons_of_neg (by simp [other])]

/-- The depth that the events tell is the number of active calls. -/
theorem Lawful.toldDepth_eq (lawful : Lawful c events) : toldDepth events = active events := by
  induction lawful with
  | nil => rfl
  | @cons event past before fits delivers ih =>
    cases event with
    | entered callee depth => exact fits.1.trans (List.countP_cons_of_pos rfl).symm
    | left callee depth =>
      exact Nat.sub_eq_of_eq_add (fits.1.trans (active_left fits.2 depth))
    | refused callee depth => exact fits.1
    | dispatchBegan | initializerStarted =>
      exact ih.trans (List.countP_cons_of_neg Bool.false_ne_true).symm
    | dispatchEnded => exact ih.trans (active_tail rfl fits).symm
    | initializerEnded name outcome =>
      obtain ⟨since, inside⟩ := fits
      exact ih.trans (active_tail rfl inside).symm
    | _ => exact ih

/-- No more calls are active than the limit allows. -/
theorem Lawful.active_le {limit : Nat} (lawful : Lawful c events)
    (limited : c.maxCallDepth = some limit) : active events ≤ limit := by
  induction lawful with
  | nil => exact Nat.zero_le limit
  | @cons event past before fits delivers ih =>
    cases event with
    | entered callee depth =>
      have room : active past ≠ limit := fun full => fits.2 (full ▸ limited)
      have one : active (.entered callee depth :: past) = active past + 1 :=
        List.countP_cons_of_pos rfl
      omega
    | left | dispatchEnded | initializerEnded =>
      exact Nat.le_trans (List.tail_sublist _).countP_le ih
    | _ => exact ih

/-- At most one dispatch is under way. -/
theorem Lawful.count_dispatch_le (lawful : Lawful c events) :
    (underWay events).count .dispatch ≤ 1 := by
  induction lawful with
  | nil => exact Nat.zero_le 1
  | @cons event past before fits delivers ih =>
    cases event with
    | dispatchBegan =>
      have none : (underWay past).count .dispatch = 0 := List.count_eq_zero.2 fits
      simp [underWay, none]
    | entered | initializerStarted => simpa [underWay] using ih
    | left | dispatchEnded | initializerEnded =>
      exact Nat.le_trans ((List.tail_sublist _).count_le _) ih
    | _ => exact ih

end ScriptCore
