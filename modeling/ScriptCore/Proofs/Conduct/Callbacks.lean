import ScriptCore.Proofs.Conduct.Answers

/-!
Which callbacks an operation makes, and what becomes of their failures.

An operation makes a callback in a machine if what it comes to hangs on the answer there. The
failure of a callback ends an operation that does not catch. All that is still done is to end the
dispatch that the callback was made in, if it was made in one. A fault that an operation ends with
is either its own, without a trace, or unchanged the fault of a callback that it made. And what an
operation does besides its callbacks are steps of its own and the beginnings and ends of dispatches.
-/

namespace ScriptCore

variable {ε α β : Type} {re other : Reentry} {asked : Callback} {here m m' : Machine}
  {failure : Failure} {fault : Fault}

/-! ### Callbacks of plans -/

section Plans

variable {catching : Prop} [Failing ε] {after : Machine}

/-- The failure of a callback ends a plan, unless the plan catches it. -/
theorem Plan.run_of_hangs (plan : Plan catching ε α m)
    (hangs : re.HangsOn (fun re => plan.run re) asked here)
    (failed : (re.answer asked).on here = (.error failure, after))
    (uncaught : catching → failure = .exhausted) :
    ∃ after', plan.run re = (.error (Failing.ofFailure failure), after') ∧
      Reentry.EndsDispatch after after' := by
  obtain ⟨other, agrees, differs⟩ := hangs
  dsimp only at differs
  induction plan with
  | ended => exact absurd rfl differs
  | asks within m' own next ih =>
    by_cases same : (other.answer within).on m' = (re.answer within).on m'
    · rw [run, run, same] at differs
      rw [run]
      cases answered : (re.answer within).on m' with
      | mk answer after' =>
        rw [answered] at differs
        cases answer with
        | ok a => exact ih a after' differs
        | error => exact absurd rfl differs
    · obtain ⟨after', answered, ended⟩ := Reentry.on_answer_of_hangs ⟨other, agrees, same⟩ failed
      refine ⟨after', ?_, ended⟩
      rw [run, answered]
  | guards allowed within m' own next caught ih ihCaught =>
    cases uncaught allowed
    by_cases same : (other.answer within).on m' = (re.answer within).on m'
    · rw [run, run, same] at differs
      rw [run]
      cases answered : (re.answer within).on m' with
      | mk answer after' =>
        rw [answered] at differs
        cases answer with
        | ok a => exact ih a after' differs
        | error other =>
          cases other with
          | fault fault => exact ihCaught fault after' differs
          | exhausted => exact absurd rfl differs
    · obtain ⟨after', answered, ended⟩ := Reentry.on_answer_of_hangs ⟨other, agrees, same⟩ failed
      refine ⟨after', ?_, ended⟩
      rw [run, answered]

theorem Changes.calls (own : Changes m m') : m'.calls = m.calls := by
  induction own with
  | refl => rfl
  | tail _ step ih => exact (by cases step <;> rfl : _ = _).trans ih

/-- What a plan hangs on is asked for with the calls active that were active before. -/
theorem Plan.calls_of_hangs (plan : Plan catching ε α m) (keeps : re.KeepsCalls)
    (hangs : re.HangsOn (fun re => plan.run re) asked here) : here.calls = m.calls := by
  obtain ⟨other, agrees, differs⟩ := hangs
  dsimp only at differs
  induction plan with
  | ended => exact absurd rfl differs
  | asks within m' own next ih =>
    refine Eq.trans ?_ own.calls
    by_cases same : (other.answer within).on m' = (re.answer within).on m'
    · rw [run, run, same] at differs
      have kept := keeps within m'
      cases answered : (re.answer within).on m' with
      | mk answer after =>
        rw [answered] at differs kept
        cases answer with
        | ok a => exact (ih a after differs).trans (kept (by rintro ⟨⟩))
        | error => exact absurd rfl differs
    · exact Reentry.calls_of_hangs_answer keeps ⟨other, agrees, same⟩
  | guards allowed within m' own next caught ih ihCaught =>
    refine Eq.trans ?_ own.calls
    by_cases same : (other.answer within).on m' = (re.answer within).on m'
    · rw [run, run, same] at differs
      have kept := keeps within m'
      cases answered : (re.answer within).on m' with
      | mk answer after =>
        rw [answered] at differs kept
        cases answer with
        | ok a => exact (ih a after differs).trans (kept (by rintro ⟨⟩))
        | error other =>
          cases other with
          | fault fault => exact (ihCaught fault after differs).trans (kept (by rintro ⟨⟩))
          | exhausted => exact absurd rfl differs
    · exact Reentry.calls_of_hangs_answer keeps ⟨other, agrees, same⟩

/-! A plan is cut short with a callback where it asks for the callback and where it goes on after an
answer with a plan that is cut short. -/

section Cut

variable {within : Callback} {own : Changes m m'} {allowed : catching}
  {next : within.Answer → (after : Machine) → Plan catching ε α after}
  {caught : Fault → (after : Machine) → Plan catching ε α after}

theorem Plan.run_asks_of_cut (cut : ((re.answer within).on m').1 = .error .exhausted) :
    ((asks within m' own next).run re).1 = .error (Failing.ofFailure .exhausted) := by
  rw [run]
  cases answered : (re.answer within).on m' with
  | mk answer after =>
    rw [answered] at cut
    cases cut
    rfl

theorem Plan.run_guards_of_cut (cut : ((re.answer within).on m').1 = .error .exhausted) :
    ((guards allowed within m' own next caught).run re).1 =
      .error (Failing.ofFailure .exhausted) := by
  rw [run]
  cases answered : (re.answer within).on m' with
  | mk answer after =>
    rw [answered] at cut
    cases cut
    rfl

variable {a : within.Answer}

theorem Plan.cut_asks_next (answered : (re.answer within).on m' = (.ok a, after))
    (cut : ((next a after).run (re.cutting asked here)).1 =
      .error (Failing.ofFailure .exhausted)) :
    ((asks within m' own next).run (re.cutting asked here)).1 =
      .error (Failing.ofFailure .exhausted) := by
  obtain same | short := re.answer_cutting asked here within m'
  · rw [run, same, answered]
    exact cut
  · exact run_asks_of_cut short

theorem Plan.cut_guards_next (answered : (re.answer within).on m' = (.ok a, after))
    (cut : ((next a after).run (re.cutting asked here)).1 =
      .error (Failing.ofFailure .exhausted)) :
    ((guards allowed within m' own next caught).run (re.cutting asked here)).1 =
      .error (Failing.ofFailure .exhausted) := by
  obtain same | short := re.answer_cutting asked here within m'
  · rw [run, same, answered]
    exact cut
  · exact run_guards_of_cut short

theorem Plan.cut_guards_caught
    (answered : (re.answer within).on m' = (.error (.fault fault), after))
    (cut : ((caught fault after).run (re.cutting asked here)).1 =
      .error (Failing.ofFailure .exhausted)) :
    ((guards allowed within m' own next caught).run (re.cutting asked here)).1 =
      .error (Failing.ofFailure .exhausted) := by
  obtain same | short := re.answer_cutting asked here within m'
  · rw [run, same, answered]
    exact cut
  · exact run_guards_of_cut short

end Cut

/-- A fault that a plan ends with is its own and has no trace, or is that of a callback. -/
theorem Plan.fault_of_run (plan : Plan catching ε α m)
    (failed : plan.run re = (.error (Failing.ofFailure (.fault fault)), after)) :
    fault.trace = none ∨
      ∃ asked here after, (re.answer asked).on here = (.error (.fault fault), after) ∧
        (plan.run (re.cutting asked here)).1 = .error (Failing.ofFailure .exhausted) := by
  induction plan with
  | ended result m' own untraced => exact .inl (untraced fault (congrArg Prod.fst failed))
  | asks within m' own next ih =>
    rw [run] at failed
    cases answered : (re.answer within).on m' with
    | mk answer after' =>
      rw [answered] at failed
      cases answer with
      | ok a =>
        refine (ih a after' failed).imp_right ?_
        rintro ⟨asked, here, last, told, cut⟩
        exact ⟨asked, here, last, told, cut_asks_next answered cut⟩
      | error failure =>
        cases Failing.ofFailure_inj.1 (Except.error.inj (congrArg Prod.fst failed))
        obtain ⟨asked, here, last, told, cut⟩ := Reentry.fault_of_answer answered
        exact .inr ⟨asked, here, last, told, run_asks_of_cut cut⟩
  | guards allowed within m' own next caught ih ihCaught =>
    rw [run] at failed
    cases answered : (re.answer within).on m' with
    | mk answer after' =>
      rw [answered] at failed
      cases answer with
      | ok a =>
        refine (ih a after' failed).imp_right ?_
        rintro ⟨asked, here, last, told, cut⟩
        exact ⟨asked, here, last, told, cut_guards_next answered cut⟩
      | error failure =>
        cases failure with
        | fault other =>
          refine (ihCaught other after' failed).imp_right ?_
          rintro ⟨asked, here, last, told, cut⟩
          exact ⟨asked, here, last, told, cut_guards_caught answered cut⟩
        | exhausted => cases Failing.ofFailure_inj.1 (Except.error.inj (congrArg Prod.fst failed))

section Across

variable {R : Machine → Machine → Prop} [Passive R]

theorem Passive.changes (own : Changes m m') : R m m' := by
  induction own with
  | refl => exact Passive.refl m
  | tail _ step ih => exact Passive.trans ih (Passive.change step)

/-- What holds across the callbacks that a plan is cut short with holds across the plan. -/
theorem Plan.related_run (plan : Plan catching ε α m) (across : re.Across R fun re => plan.run re)
    (finished : (plan.run re).1 ≠ .error (Failing.ofFailure .exhausted)) :
    R m (plan.run re).2 := by
  induction plan with
  | ended result m' own untraced => exact Passive.changes own
  | asks within m' own next ih =>
    have here : ((re.answer within).on m').1 ≠ .error .exhausted →
        R m' ((re.answer within).on m').2 :=
      Reentry.related_answer fun asked here cut => across asked here (run_asks_of_cut cut)
    rw [run] at finished ⊢
    refine Passive.trans (Passive.changes own) ?_
    cases answered : (re.answer within).on m' with
    | mk answer after =>
      rw [answered] at finished here
      cases answer with
      | ok a =>
        refine Passive.trans (here (by rintro ⟨⟩)) (ih a after (fun asked here cut => ?_) finished)
        exact across asked here (cut_asks_next answered cut)
      | error failure => exact here fun cut => finished (by rw [Except.error.inj cut])
  | guards allowed within m' own next caught ih ihCaught =>
    have here : ((re.answer within).on m').1 ≠ .error .exhausted →
        R m' ((re.answer within).on m').2 :=
      Reentry.related_answer fun asked here cut => across asked here (run_guards_of_cut cut)
    rw [run] at finished ⊢
    refine Passive.trans (Passive.changes own) ?_
    cases answered : (re.answer within).on m' with
    | mk answer after =>
      rw [answered] at finished here
      cases answer with
      | ok a =>
        refine Passive.trans (here (by rintro ⟨⟩)) (ih a after (fun asked here cut => ?_) finished)
        exact across asked here (cut_guards_next answered cut)
      | error failure =>
        cases failure with
        | fault fault =>
          refine Passive.trans (here (by rintro ⟨⟩))
            (ihCaught fault after (fun asked here cut => ?_) finished)
          exact across asked here (cut_guards_caught answered cut)
        | exhausted => exact absurd rfl finished

end Across

/-! ### Callbacks of operations -/

/-- An operation hangs on a callback with which it is cut short. -/
theorem Reentry.hangsOn_of_cut {op : Reentry → Run ε α}
    (cut : ((op (re.cutting asked here)).on m).1 = .error (Failing.ofFailure .exhausted))
    (finished : ((op re).on m).1 ≠ .error (Failing.ofFailure .exhausted)) :
    re.HangsOn (fun re => (op re).on m) asked here :=
  ⟨_, re.agreesBut_cutting asked here, fun same => finished (congrArg Prod.fst same ▸ cut)⟩

namespace Follows

variable {op : Reentry → Run ε α} (follows : Follows catching op)

include follows

theorem hangs_plan (hangs : re.HangsOn (fun re => (op re).on m) asked here) :
    ∃ plan : Plan catching ε α m, (op re).on m = plan.run re ∧
      re.HangsOn (fun re => plan.run re) asked here := by
  obtain ⟨plan, runs⟩ := follows
  obtain ⟨other, agrees, differs⟩ := hangs
  refine ⟨plan re.holds m, runs re m, other, agrees, fun same => differs ?_⟩
  dsimp only at same ⊢
  rw [runs, runs, agrees.holds, same]

/-- The failure of a callback ends an operation that does not catch it. -/
theorem fails (hangs : re.HangsOn (fun re => (op re).on m) asked here)
    (failed : (re.answer asked).on here = (.error failure, after))
    (uncaught : catching → failure = .exhausted) :
    ∃ after', (op re).on m = (.error (Failing.ofFailure failure), after') ∧
      Reentry.EndsDispatch after after' := by
  obtain ⟨plan, runs, hangs⟩ := follows.hangs_plan hangs
  rw [runs]
  exact plan.run_of_hangs hangs failed uncaught

/-- An operation makes its callbacks with the calls active that were active before. -/
theorem calls_eq (keeps : re.KeepsCalls)
    (hangs : re.HangsOn (fun re => (op re).on m) asked here) : here.calls = m.calls := by
  obtain ⟨plan, -, hangs⟩ := follows.hangs_plan hangs
  exact plan.calls_of_hangs keeps hangs

/-- A fault that an operation ends with is its own and has no trace, or is that of a callback. -/
theorem origin_of_fault
    (failed : (op re).on m = (.error (Failing.ofFailure (.fault fault)), after)) :
    fault.trace = none ∨
      ∃ asked here after, (re.answer asked).on here = (.error (.fault fault), after) ∧
        re.HangsOn (fun re => (op re).on m) asked here := by
  obtain ⟨plan, runs⟩ := follows
  refine ((plan re.holds m).fault_of_run ((runs re m).symm.trans failed)).imp_right ?_
  rintro ⟨asked, here, last, answered, cut⟩
  refine ⟨asked, here, last, answered, Reentry.hangsOn_of_cut ?_ ?_⟩
  · rw [runs]
    exact cut
  · rw [failed]
    intro same
    cases Failing.ofFailure_inj.1 (Except.error.inj same)

/-- What holds across the callbacks that an operation hangs on, and across all that is no callback,
holds across the operation. -/
theorem related_of_callbacks {R : Machine → Machine → Prop} [Passive R]
    (each : ∀ asked here, re.HangsOn (fun re => (op re).on m) asked here →
      ((re.answer asked).on here).1 ≠ .error .exhausted → R here ((re.answer asked).on here).2)
    (finished : ((op re).on m).1 ≠ .error (Failing.ofFailure .exhausted)) :
    R m ((op re).on m).2 := by
  obtain ⟨plan, runs⟩ := follows
  rw [runs] at finished ⊢
  refine (plan re.holds m).related_run (fun asked here cut => ?_) finished
  refine each asked here (Reentry.hangsOn_of_cut ?_ ?_)
  · rw [runs]
    exact cut
  · rw [runs]
    exact finished

end Follows

end Plans

end ScriptCore
