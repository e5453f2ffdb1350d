import ScriptCore.Proofs.Conduct.Balance

/-!
What becomes of a signal that dispatch takes.

Dispatch clears the mark of a signal before it calls the handler, and the call is subject to the
limit on active calls like any other. So the handler is entered if there is room for one more call,
and otherwise the signal is gone without its handler having run.
-/

namespace ScriptCore

variable {c : Config} {m : Machine}

/-- The event after a signal with a handler is taken enters the handler, if there is room for one
more call, and refuses it if there is none. -/
theorem taken_answered (moment : Moment c m) {later past : List Event} {s : OsSignal}
    {f : Ref .function} (split : m.journal = later ++ .taken s (some f) :: past) :
    ∃ since event, later = since ++ [event] ∧
      event = if c.maxCallDepth = some (active past) then .refused f (active past)
        else .entered f (active past + 1) := by
  obtain rfl | ⟨since, event, rfl⟩ := List.eq_nil_or_concat' later
  · exact absurd split (moment.settled s f past)
  · have lawful := moment.orderly.lawful
    rw [split, List.append_assoc, List.singleton_append] at lawful
    have same : active (.taken s (some f) :: past) = active past := rfl
    refine ⟨since, event, rfl, ?_⟩
    obtain ⟨depth, rfl | rfl⟩ := lawful.delivers s f past rfl
    · obtain ⟨rfl, room⟩ := lawful.fits
      rw [same] at room ⊢
      rw [if_neg room]
    · obtain ⟨rfl, full⟩ := lawful.fits
      rw [same] at full ⊢
      rw [if_pos full]

namespace Interpreter

/-- The machine with a pending signal that the function of `lone` handles. -/
def ringing (m : Machine) : Machine :=
  let m := { m with signals := m.signals.register .user1 ⟨0⟩ }
  { m with signals := m.signals.raise .user1, journal := .raised .user1 :: m.journal }

theorem moment_ringing (moment : Moment c m) : Moment c (ringing m) :=
  .change (.change moment (.register _ .user1 ⟨0⟩)) (.raise _ .user1)

/-- The machine after a safe point. -/
def afterSafePoint (m : Machine) : Machine := ((Invocation.safePoint (nested 1 [])).on m).2

theorem moment_afterSafePoint (moment : Moment c m)
    (finished : ((Invocation.safePoint (nested 1 [])).on m).1 ≠ .error .exhausted) :
    Moment c (afterSafePoint m) :=
  ((Invocation.leads_safePoint (R := Balanced c) (nested 1 [])).related m finished).moment moment

end Interpreter

open Interpreter

/-- Outside of all calls there is room for the handler. -/
theorem taken_answered_lone :
    Moment single (afterSafePoint (ringing lone)) ∧
      (afterSafePoint (ringing lone)).journal =
        [.dispatchEnded, .left ⟨0⟩ 1, .entered ⟨0⟩ 1] ++
          .taken .user1 (some ⟨0⟩) :: [.dispatchBegan, .raised .user1] ∧
      ∃ since, [Event.dispatchEnded, .left ⟨0⟩ 1, .entered ⟨0⟩ 1] =
        since ++ [.entered ⟨0⟩ (active [.dispatchBegan, .raised .user1] + 1)] := by
  have moment : Moment single (afterSafePoint (ringing lone)) :=
    moment_afterSafePoint (moment_ringing (.change .blank (.heap _ _))) (by decide +kernel)
  have journal : (afterSafePoint (ringing lone)).journal =
      [.dispatchEnded, .left ⟨0⟩ 1, .entered ⟨0⟩ 1] ++
        .taken .user1 (some ⟨0⟩) :: [.dispatchBegan, .raised .user1] := rfl
  obtain ⟨since, event, split, rfl⟩ := taken_answered moment journal
  exact ⟨moment, journal, since, split⟩

/-- The handler of a signal that is taken need not be entered: in a call at the limit the signal is
taken, its handler is refused, and nothing is pending any more. -/
theorem taken_unanswered :
    ¬ ∀ c m, Moment c m → ∀ later s f past, m.journal = later ++ .taken s (some f) :: past →
      ∃ since depth, later = since ++ [.entered f depth] := by
  intro entered
  have inCall : Moment single busy := .enter (.change .blank (.heap _ _)) rfl
  have moment : Moment single (afterSafePoint (ringing busy)) :=
    moment_afterSafePoint (moment_ringing inCall) (by decide +kernel)
  have journal : (afterSafePoint (ringing busy)).journal =
      [.dispatchEnded, .refused ⟨0⟩ 1] ++
        .taken .user1 (some ⟨0⟩) :: [.dispatchBegan, .raised .user1, .entered ⟨0⟩ 1] := rfl
  obtain ⟨since, depth, split⟩ := entered _ _ moment _ _ _ _ journal
  have last := congrArg List.getLast? split
  rw [List.getLast?_concat] at last
  cases last

end ScriptCore
