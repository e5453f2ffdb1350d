import ScriptCore.Proofs.Conduct.Steady

/-!
What the protocols of the interpreter do to a machine: safe points, calls and initialisations.

Each of them is opened here once, by what it does to a given machine. A steady relation holds
across all of them if it holds across the ways back into the interpreter and across the work that
they surround.
-/

namespace ScriptCore

open ScriptCore.Action

variable {R : Machine → Machine → Prop} {m m' : Machine}

/-- The relation holds across the ways back into the interpreter, and while a dispatch is under
way, calling a function comes to nothing but its call. -/
class Reentry.Leads (R : Machine → Machine → Prop) (re : Reentry) : Prop where
  call : ∀ holds callee args this, (re.call holds callee args this).Leads R
  handler : ∀ holds callee args this m, m.dispatching = true →
    ((re.call holds callee args this).on m).1 ≠ .error .exhausted →
    Called R callee m ((re.call holds callee args this).on m).2
  request : ∀ holds name, (re.request holds name).Leads R

instance {re : Reentry} [leads : re.Leads R] (holds : List Hold) :
    Reentry.Leads R { re with holds } where
  call := leads.call
  handler := leads.handler
  request := leads.request

instance {re : Reentry} [re.Leads R] (values : List Value) : (re.holding values).Leads R :=
  inferInstanceAs (Reentry.Leads R { re with holds := _ })

theorem Reentry.leads_invoke {re : Reentry} [re.Leads R] (callee : Ref .function)
    (args : List Value) (this : Option Value) : (re.invoke callee args this).Leads R :=
  Leads.call _ _ _ _

namespace Invocation

/-! ### Safe points -/

section Dispatch

variable (re : Reentry) {s : OsSignal}

theorem on_dispatchSignal_of_idle (idle : m.signals.isPending s = false) :
    (dispatchSignal re s).on m = (.ok (), m) := by
  rw [dispatchSignal, Run.on_bind_of_ok (on_get m), if_neg (by simp [idle])]
  rfl

theorem on_dispatchSignal_of_unhandled (pending : m.signals.isPending s = true)
    (unhandled : m.signals.handler? s = none) :
    (dispatchSignal re s).on m = (.ok (), m.taking s) := by
  rw [dispatchSignal, Run.on_bind_of_ok (on_get m), if_pos pending, unhandled]
  rw [Machine.taking, unhandled]
  rfl

theorem on_dispatchSignal_of_handled {f : Ref .function} (pending : m.signals.isPending s = true)
    (handler : m.signals.handler? s = some f) :
    (dispatchSignal re s).on m =
      (discard (re.invoke f [.text s.name] none) : Action Unit).on (m.taking s) := by
  rw [dispatchSignal, Run.on_bind_of_ok (on_get m), if_pos pending, handler]
  rw [Machine.taking, handler]
  rfl

theorem dispatch_cons (rest : List OsSignal) :
    (s :: rest).forM (dispatchSignal re) =
      dispatchSignal re s >>= fun _ => rest.forM (dispatchSignal re) := rfl

theorem on_safePoint_of_dispatching (dispatching : m.dispatching = true) :
    (safePoint re).on m = (.ok (), m) := by
  rw [safePoint, Run.on_bind_of_ok (on_get m), if_pos dispatching]
  rfl

theorem on_safePoint_of_not_dispatching (outside : m.dispatching = false) :
    (safePoint re).on m = (((dispatchPending re).on m.dispatchBegun).1,
      ((dispatchPending re).on m.dispatchBegun).2.dispatchOver) := by
  rw [safePoint, Run.on_bind_of_ok (on_get m), if_neg (by simp [outside])]
  rfl

theorem on_poll_of_polling (polling : m.polling = true) :
    (poll re).on m = (safePoint re).on m := by
  rw [poll, Run.on_bind_of_ok (on_get m), if_pos polling]

theorem on_poll_of_not_polling (silent : m.polling = false) : (poll re).on m = (.ok (), m) := by
  rw [poll, Run.on_bind_of_ok (on_get m), if_neg (by simp [silent])]
  rfl

theorem on_poll_of_dispatching (dispatching : m.dispatching = true) :
    (poll re).on m = (.ok (), m) := by
  cases polling : m.polling with
  | true => rw [on_poll_of_polling re polling, on_safePoint_of_dispatching re dispatching]
  | false => exact on_poll_of_not_polling re polling

variable [Abiding R] [leads : re.Leads R]

/-- Dispatching signals one after another comes to their turns. The first handler that fails ends
the dispatch. -/
theorem turns_dispatch (signals : List OsSignal) (dispatching : m.dispatching = true)
    (finished : ((signals.forM (dispatchSignal re)).on m).1 ≠ .error .exhausted) :
    Turns R signals m ((signals.forM (dispatchSignal re)).on m).2 := by
  induction signals generalizing m with
  | nil => exact .stopped
  | cons s rest ih =>
    rw [dispatch_cons] at finished ⊢
    cases pending : m.signals.isPending s with
    | false =>
      rw [Run.on_bind_of_ok (on_dispatchSignal_of_idle re pending)] at finished ⊢
      exact .idle pending (ih dispatching finished)
    | true =>
      cases handler : m.signals.handler? s with
      | none =>
        rw [Run.on_bind_of_ok (on_dispatchSignal_of_unhandled re pending handler)] at finished ⊢
        exact .dropped pending handler (ih dispatching finished)
      | some f =>
        have called := leads.handler re.holds f [.text s.name] none (m.taking s) dispatching
        rw [Run.on_bind, on_dispatchSignal_of_handled re pending handler, Run.on_discard]
          at finished ⊢
        rw [← Reentry.invoke] at called
        cases done : (re.invoke f [.text s.name] none).on (m.taking s) with
        | mk result after =>
          rw [done] at called finished
          cases result with
          | ok v =>
            -- The handler leaves the dispatching mark, so the other turns are in the dispatch too.
            have here := called nofun
            have kept : after.dispatching = true :=
              (Abiding.dispatching (Abiding.call here)).trans dispatching
            exact .handled pending handler here (ih kept finished)
          | error failure =>
            have here := called fun cut => finished (congrArg _ (Except.error.inj cut))
            exact .handled pending handler here .stopped

theorem leads_safePoint : (safePoint re).Leads R where
  related m finished := by
    cases outside : m.dispatching with
    | true =>
      rw [on_safePoint_of_dispatching re outside]
      exact Abiding.refl m
    | false =>
      rw [on_safePoint_of_not_dispatching re outside] at finished ⊢
      exact Abiding.dispatch outside (turns_dispatch re OsSignal.all rfl finished)

theorem leads_poll : (poll re).Leads R where
  related m finished := by
    cases polling : m.polling with
    | true =>
      rw [on_poll_of_polling re polling] at finished ⊢
      exact (leads_safePoint re).related m finished
    | false =>
      rw [on_poll_of_not_polling re polling]
      exact Abiding.refl m

end Dispatch

/-! ### Calls -/

/-- What a call comes to: the failure of its safe point, its refusal, or what its work comes to
while it is active. -/
inductive CallOutcome (re : Reentry) (callee : Ref .function) (work : Action Value) (m : Machine) :
    Except Failure Value × Machine → Prop
  | interrupted {failure m'} (failed : (poll re).on m = (.error failure, m')) :
    CallOutcome re callee work m (.error failure, m')
  | refused {cause polled} (safe : (poll re).on m = (.ok (), polled))
      (full : polled.calls.push (polled.heap.functionName callee) = .error cause) :
    CallOutcome re callee work m (.error (.fault { cause }), polled.refusing callee)
  | entered {calls polled} (safe : (poll re).on m = (.ok (), polled))
      (room : polled.calls.push (polled.heap.functionName callee) = .ok calls) :
    CallOutcome re callee work m (((traced work).on (polled.entering callee calls)).1,
      leave callee (work.on (polled.entering callee calls)).2)

section Calls

variable {callee : Ref .function} {calls : CallStack} {cause : Cause}

theorem on_traced_snd {α : Type} (action : Action α) (m : Machine) :
    ((traced action).on m).2 = (action.on m).2 := by
  rw [Run.on, Run.on, traced]
  split
  · next done => rw [done]
  · rfl

theorem on_traced_congr {α : Type} {action other : Action α} (same : action.on m = other.on m') :
    (traced action).on m = (traced other).on m' := by
  rw [Run.on, Run.on] at same ⊢
  rw [traced, traced, same]

theorem on_traced_of_ok {α : Type} {action : Action α} {a : α}
    (done : action.on m = (.ok a, m')) : (traced action).on m = (.ok a, m') := by
  rw [Run.on] at done ⊢
  rw [traced, done]

theorem on_traced_of_fault {α : Type} {action : Action α} {fault : Fault}
    (failed : action.on m = (.error (.fault fault), m')) :
    (traced action).on m = (.error (.fault (m'.calls.attachTrace fault)), m') := by
  rw [Run.on] at failed ⊢
  rw [traced, failed]

theorem on_traced_of_exhausted {α : Type} {action : Action α}
    (cut : (action.on m).1 = .error .exhausted) :
    ((traced action).on m).1 = .error .exhausted := by
  rw [Run.on] at cut ⊢
  rw [traced]
  split
  · next done =>
    rw [done] at cut
    cases cut
  · exact cut

/-- An action that fails still fails with its trace. -/
theorem on_traced_of_error {α : Type} {action : Action α} {failure : Failure}
    (failed : action.on m = (.error failure, m')) :
    ∃ failure', (traced action).on m = (.error failure', m') := by
  cases failure with
  | fault fault => exact ⟨_, on_traced_of_fault failed⟩
  | exhausted =>
    have cut : (action.on m).1 = .error .exhausted := congrArg Prod.fst failed
    refine ⟨.exhausted, Prod.ext (on_traced_of_exhausted cut) ?_⟩
    rw [on_traced_snd, failed]

theorem leads_traced {α : Type} {action : Action α} (leads : action.Leads R) :
    (traced action).Leads R where
  related m finished := by
    rw [on_traced_snd]
    exact leads.related m fun cut => finished (on_traced_of_exhausted cut)

/-- What a call comes to after its safe point. -/
def admitted (callee : Ref .function) (work : Action Value) : Action Value := do
  enter callee
  (traced work).ending (leave callee)

theorem on_admitted_of_full (full : m.calls.push (m.heap.functionName callee) = .error cause)
    (work : Action Value) :
    (admitted callee work).on m = (.error (.fault { cause }), m.refusing callee) := by
  rw [admitted, enter, bind_assoc, Run.on_bind_of_ok (on_get m), full]
  rfl

theorem on_admitted_of_room (room : m.calls.push (m.heap.functionName callee) = .ok calls)
    (work : Action Value) :
    (admitted callee work).on m = (((traced work).on (m.entering callee calls)).1,
      leave callee (work.on (m.entering callee calls)).2) := by
  rw [← on_traced_snd, admitted, enter, bind_assoc, Run.on_bind_of_ok (on_get m), room]
  rfl

theorem called_admitted {work : Action Value} (leads : work.Leads R)
    (finished : ((admitted callee work).on m).1 ≠ .error .exhausted) :
    Called R callee m ((admitted callee work).on m).2 := by
  cases place : m.calls.push (m.heap.functionName callee) with
  | error cause =>
    rw [on_admitted_of_full place]
    exact .refused place
  | ok calls =>
    rw [on_admitted_of_room place] at finished ⊢
    refine .made place ?_
    rw [← on_traced_snd]
    exact (leads_traced leads).related _ finished

theorem on_call_of_polled {re : Reentry} (polled : (poll re).on m = (.ok (), m'))
    (callee : Ref .function) (work : Action Value) :
    (call re callee work).on m = (admitted callee work).on m' := Run.on_bind_of_ok polled _

theorem on_call_of_poll_failed {re : Reentry} {failure : Failure}
    (failed : (poll re).on m = (.error failure, m')) (callee : Ref .function)
    (work : Action Value) : (call re callee work).on m = (.error failure, m') := by
  rw [call, Run.on_bind, failed]

theorem call_outcome (re : Reentry) (callee : Ref .function) (work : Action Value) (m : Machine) :
    CallOutcome re callee work m ((call re callee work).on m) := by
  match safe : (poll re).on m with
  | (.error failure, after) =>
    rw [on_call_of_poll_failed safe]
    exact .interrupted safe
  | (.ok (), polled) =>
    rw [on_call_of_polled safe]
    cases place : polled.calls.push (polled.heap.functionName callee) with
    | error cause =>
      rw [on_admitted_of_full place]
      exact .refused safe place
    | ok calls =>
      rw [on_admitted_of_room place]
      exact .entered safe place

theorem called_call (re : Reentry) {work : Action Value} (leads : work.Leads R)
    (dispatching : m.dispatching = true)
    (finished : ((call re callee work).on m).1 ≠ .error .exhausted) :
    Called R callee m ((call re callee work).on m).2 := by
  rw [on_call_of_polled (on_poll_of_dispatching re dispatching)] at finished ⊢
  exact called_admitted leads finished

variable [Abiding R]

theorem leads_call (re : Reentry) [re.Leads R] (callee : Ref .function) {work : Action Value}
    (leads : work.Leads R) : (call re callee work).Leads R :=
  .bind (leads_poll re) fun _ => ⟨fun _ finished => Abiding.call (called_admitted leads finished)⟩

end Calls

end Invocation

/-! ### Initialisations -/

/-- A request that starts nothing leaves the registry as it is. -/
theorem Registry.snd_request {registry : Registry} {name : String}
    (idle : ∀ initializer table, (registry.request name).1 ≠ .start initializer table) :
    (registry.request name).2 = registry := by
  rw [request] at idle ⊢
  cases found : registry.package? name with
  | none => rfl
  | some package =>
    rw [found] at idle
    obtain ⟨bindings, state⟩ := package
    cases state with
    | unstarted initializer => exact absurd rfl (idle initializer bindings)
    | initializing | ready | failed => rfl

namespace Packages

/-- What a request comes to: the answer that the package has already, or what becomes of the
initialiser that is started. -/
inductive RequestOutcome (run : Initializer → Table → Action Table) (name : String) (m : Machine) :
    Except Failure Table × Machine → Prop
  | refused {fault} (kept : (m.registry.request name).1 = .refused fault) :
    RequestOutcome run name m (.error (.fault fault), m)
  | ready {table} (filled : (m.registry.request name).1 = .ready table) :
    RequestOutcome run name m (.ok table, m)
  | filled {initializer table registry filling m'}
      (start : m.registry.request name = (.start initializer table, registry))
      (came : (run initializer table).on (m.starting name initializer registry) =
        (.ok filling, m')) :
    RequestOutcome run name m
      (.ok (m'.registry.complete name filling).1, m'.finishing name (.ok filling))
  | failed {initializer table registry fault m'}
      (start : m.registry.request name = (.start initializer table, registry))
      (came : (run initializer table).on (m.starting name initializer registry) =
        (.error (.fault fault), m')) :
    RequestOutcome run name m (.error (.fault fault), m'.finishing name (.error fault))
  | exhausted {initializer table registry m'}
      (start : m.registry.request name = (.start initializer table, registry))
      (came : (run initializer table).on (m.starting name initializer registry) =
        (.error .exhausted, m')) :
    RequestOutcome run name m (.error .exhausted, m')

section Ensure

variable {run : Initializer → Table → Action Table} {filling : Action Table} {name : String}
  {table : Table} {initializer : Initializer} {registry : Registry} {fault : Fault}

theorem on_finish_of_ok (filled : filling.on m = (.ok table, m')) :
    (finish name filling).on m =
      (.ok (m'.registry.complete name table).1, m'.finishing name (.ok table)) := by
  rw [Run.on] at filled ⊢
  rw [finish, filled]
  rfl

theorem on_finish_of_fault (failed : filling.on m = (.error (.fault fault), m')) :
    (finish name filling).on m = (.error (.fault fault), m'.finishing name (.error fault)) := by
  rw [Run.on] at failed ⊢
  rw [finish, failed]
  rfl

theorem on_finish_of_exhausted (cut : filling.on m = (.error .exhausted, m')) :
    (finish name filling).on m = (.error .exhausted, m') := by
  rw [Run.on] at cut ⊢
  rw [finish, cut]

theorem on_ensure_of_refused (refused : (m.registry.request name).1 = .refused fault) :
    (ensure run name).on m = (.error (.fault fault), m) := by
  have unchanged := Registry.snd_request fun initializer table start => nomatch refused ▸ start
  rw [ensure, Run.on_bind_of_ok (on_get m)]
  dsimp only
  rw [refused, unchanged]
  rfl

theorem on_ensure_of_ready (ready : (m.registry.request name).1 = .ready table) :
    (ensure run name).on m = (.ok table, m) := by
  have unchanged := Registry.snd_request fun initializer table start => nomatch ready ▸ start
  rw [ensure, Run.on_bind_of_ok (on_get m)]
  dsimp only
  rw [ready, unchanged]
  rfl

theorem on_ensure_of_start
    (start : m.registry.request name = (.start initializer table, registry)) :
    (ensure run name).on m =
      (finish name (run initializer table)).on (m.starting name initializer registry) := by
  rw [ensure, Run.on_bind_of_ok (on_get m), start]
  rfl

theorem ensure_outcome (run : Initializer → Table → Action Table) (name : String) (m : Machine) :
    RequestOutcome run name m ((ensure run name).on m) := by
  match asked : m.registry.request name with
  | (.refused fault, registry) =>
    rw [on_ensure_of_refused (congrArg Prod.fst asked)]
    exact .refused (congrArg Prod.fst asked)
  | (.ready table, registry) =>
    rw [on_ensure_of_ready (congrArg Prod.fst asked)]
    exact .ready (congrArg Prod.fst asked)
  | (.start initializer table, registry) =>
    rw [on_ensure_of_start asked]
    match came : (run initializer table).on (m.starting name initializer registry) with
    | (.ok filling, after) =>
      rw [on_finish_of_ok came]
      exact .filled asked came
    | (.error (.fault fault), after) =>
      rw [on_finish_of_fault came]
      exact .failed asked came
    | (.error .exhausted, after) =>
      rw [on_finish_of_exhausted came]
      exact .exhausted asked came

variable [Abiding R]

theorem leads_ensure (fills : ∀ initializer table, (run initializer table).Leads R)
    (name : String) : (ensure run name).Leads R where
  related m finished := by
    have outcome := ensure_outcome run name m
    generalize (ensure run name).on m = result at finished outcome ⊢
    cases outcome with
    | refused | ready => exact Abiding.refl m
    | @filled initializer table registry filling m' start came =>
      have inside := (fills initializer table).related (m.starting name initializer registry)
      rw [came] at inside
      exact Abiding.initialization (.ok filling) start (inside nofun)
    | @failed initializer table registry fault m' start came =>
      have inside := (fills initializer table).related (m.starting name initializer registry)
      rw [came] at inside
      exact Abiding.initialization (.error fault) start (inside nofun)
    | exhausted => exact absurd rfl finished

end Ensure

end Packages

end ScriptCore
