import ScriptCore.Proofs.Conduct.Moments

/-!
The discipline of signal dispatch.

A dispatch gives each signal one turn, in a fixed order. The turn of a pending signal clears its
mark and calls the handler that it has then; the first handler that fails ends the dispatch. Within
a dispatch no mark vanishes except in the turn of its own signal, whatever handlers do, so what is
raised meanwhile has its turn or stays pending.
-/

namespace ScriptCore

variable {c : Config} {m m' : Machine}

/-! ### Turns -/

/-- The turn of a signal: from a machine to an outcome and a machine. -/
inductive Turn (re : Reentry) (s : OsSignal) : Machine → Except Failure Unit → Machine → Prop
  /-- The signal is not pending. -/
  | idle {m : Machine} (idle : m.signals.isPending s = false) : Turn re s m (.ok ()) m
  /-- The mark is cleared, and there is no handler. -/
  | dropped {m : Machine} (pending : m.signals.isPending s = true)
      (unhandled : m.signals.handler? s = none) : Turn re s m (.ok ()) (m.taking s)
  /-- The mark is cleared, and then the handler is called once, with the name of the signal. -/
  | handled {m m' : Machine} {f : Ref .function} {answer : Except Failure Value}
      (pending : m.signals.isPending s = true) (handler : m.signals.handler? s = some f)
      (called : (re.invoke f [.text s.name] none).on (m.taking s) = (answer, m')) :
    Turn re s m (answer.map fun _ => ()) m'

/-- A signal that had its turn, and the machines before and after it. -/
structure Visit where
  signal : OsSignal
  before : Machine
  after : Machine

/-- Turns one after another, up to the first that fails. -/
inductive Proceeds (re : Reentry) : Machine → List Visit → Except Failure Unit → Machine → Prop
  | done {m : Machine} : Proceeds re m [] (.ok ()) m
  | failed {s : OsSignal} {m m' : Machine} {failure : Failure}
      (turn : Turn re s m (.error failure) m') : Proceeds re m [⟨s, m, m'⟩] (.error failure) m'
  | next {s : OsSignal} {m m' m'' : Machine} {visits : List Visit} {outcome : Except Failure Unit}
      (turn : Turn re s m (.ok ()) m') (others : Proceeds re m' visits outcome m'') :
    Proceeds re m (⟨s, m, m'⟩ :: visits) outcome m''

namespace Invocation

theorem turn_dispatchSignal (re : Reentry) (s : OsSignal) (m : Machine) :
    Turn re s m ((dispatchSignal re s).on m).1 ((dispatchSignal re s).on m).2 := by
  cases pending : m.signals.isPending s with
  | false =>
    rw [on_dispatchSignal_of_idle re pending]
    exact .idle pending
  | true =>
    cases handler : m.signals.handler? s with
    | none =>
      rw [on_dispatchSignal_of_unhandled re pending handler]
      exact .dropped pending handler
    | some f =>
      rw [on_dispatchSignal_of_handled re pending handler, Run.on_discard]
      cases called : (re.invoke f [.text s.name] none).on (m.taking s) with
      | mk answer m' => cases answer <;> exact .handled pending handler called

/-- Dispatching signals gives them their turns in order, each once, and all of them if no handler
fails. -/
theorem proceeds_dispatch (re : Reentry) (signals : List OsSignal) (m : Machine) :
    ∃ visits unvisited, visits.map Visit.signal ++ unvisited = signals ∧
      Proceeds re m visits ((signals.forM (dispatchSignal re)).on m).1
        ((signals.forM (dispatchSignal re)).on m).2 ∧
      (((signals.forM (dispatchSignal re)).on m).1 = .ok () → unvisited = []) := by
  induction signals generalizing m with
  | nil => exact ⟨[], [], rfl, .done, fun _ => rfl⟩
  | cons s rest ih =>
    have split : (s :: rest).forM (dispatchSignal re) =
        dispatchSignal re s >>= fun _ => rest.forM (dispatchSignal re) := rfl
    have turn := turn_dispatchSignal re s m
    rw [split, Run.on_bind]
    cases done : (dispatchSignal re s).on m with
    | mk outcome m' =>
      rw [done] at turn
      cases outcome with
      | ok =>
        obtain ⟨visits, unvisited, order, proceeds, all⟩ := ih m'
        exact ⟨⟨s, m, m'⟩ :: visits, unvisited, congrArg _ order, .next turn proceeds, all⟩
      | error failure => exact ⟨[⟨s, m, m'⟩], rest, rfl, .failed turn, nofun⟩

/-- A safe point outside a dispatch gives the signals their turns. -/
theorem safePoint_proceeds (re : Reentry) (outside : m.dispatching = false)
    {outcome : Except Failure Unit} (done : (safePoint re).on m = (outcome, m')) :
    ∃ visits unvisited last, visits.map Visit.signal ++ unvisited = OsSignal.all ∧
      Proceeds re m.dispatchBegun visits outcome last ∧ m' = last.dispatchOver ∧
      (outcome = .ok () → unvisited = []) := by
  obtain ⟨visits, unvisited, order, proceeds, all⟩ :=
    proceeds_dispatch re OsSignal.all m.dispatchBegun
  rw [on_safePoint_of_not_dispatching re outside, dispatchPending] at done
  generalize (OsSignal.all.forM (dispatchSignal re)).on m.dispatchBegun = ending
    at done proceeds all
  cases done
  exact ⟨visits, unvisited, _, order, proceeds, rfl, all⟩

end Invocation

/-! ### Marks within a dispatch -/

/-- How often the events raise a signal. -/
def raisings (s : OsSignal) (events : List Event) : Nat :=
  events.countP fun
    | .raised other => decide (other = s)
    | _ => false

namespace SignalTable

variable {table : SignalTable} {s t : OsSignal}

theorem isPending_raise : (table.raise s).isPending t = (table.isPending t || decide (t = s)) := by
  rw [raise]
  split
  · next already =>
    by_cases same : t = s
    · simp [same, already]
    · simp [same]
  · simp [isPending, Bool.or_comm]

theorem isPending_take_of_ne (other : t ≠ s) :
    (table.take s).isPending t = table.isPending t := by simp [take, isPending, other]

end SignalTable

/-- Within a dispatch, what is pending stays so, and what is raised is pending afterwards. -/
structure KeepsMarks (m m' : Machine) : Prop where
  dispatching : m'.dispatching = m.dispatching
  pending : m.dispatching = true → ∀ t, m.signals.isPending t = true → m'.signals.isPending t = true
  raised : m.dispatching = true → ∀ t, raisings t m.journal < raisings t m'.journal →
    m'.signals.isPending t = true

namespace KeepsMarks

/-- A step that neither changes marks nor raises anything. -/
theorem of_eq (dispatching : m'.dispatching = m.dispatching)
    (marks : m'.signals.pending = m.signals.pending)
    (raised : ∀ t, raisings t m'.journal = raisings t m.journal) : KeepsMarks m m' where
  dispatching := dispatching
  pending _ t here := by rwa [SignalTable.isPending, marks]
  raised _ t more := absurd more (raised t ▸ Nat.lt_irrefl _)

theorem trans {m'' : Machine} (first : KeepsMarks m m') (second : KeepsMarks m' m'') :
    KeepsMarks m m'' where
  dispatching := second.dispatching.trans first.dispatching
  pending within t here :=
    second.pending (first.dispatching.trans within) t (first.pending within t here)
  raised within t more := by
    have within' := first.dispatching.trans within
    -- What was raised in the first step only is kept pending by the second one.
    by_cases later : raisings t m'.journal < raisings t m''.journal
    · exact second.raised within' t later
    · exact second.pending within' t (first.raised within t (by omega))

theorem of_change (step : Change m m') : KeepsMarks m m' := by
  cases step with
  | heap | output | register | unregister | registerPackage | registerSymbol =>
    exact .of_eq rfl rfl fun _ => rfl
  | raise s =>
    refine ⟨rfl, fun _ t here => ?_, fun _ t more => ?_⟩
    · simp [SignalTable.isPending_raise, here]
    · have same : t = s := by
        by_contra other
        refine absurd more (Nat.not_lt.2 (Nat.le_of_eq (List.countP_cons_of_neg ?_)))
        simpa using Ne.symm other
      simp [SignalTable.isPending_raise, same]

end KeepsMarks

instance : Steady KeepsMarks where
  refl m := .of_eq rfl rfl fun _ => rfl
  trans := .trans
  change := .of_change
  dispatching related := related.dispatching
  call {callee m m'} called := by
    cases called with
    | refused full => exact .of_eq rfl rfl fun _ => rfl
    | @made m' calls room inside =>
      have entered : KeepsMarks m (m.entering callee calls) := .of_eq rfl rfl fun _ => rfl
      have left : KeepsMarks m' (Invocation.leave callee m') := .of_eq rfl rfl fun _ => rfl
      exact entered.trans (inside.trans left)
  dispatch outside turns := by
    refine ⟨outside.symm, fun within => ?_, fun within => ?_⟩ <;> simp [outside] at within
  initialization {name initializer table registry m m'} outcome asked inside := by
    have started : KeepsMarks m (m.starting name initializer registry) :=
      .of_eq rfl rfl fun _ => rfl
    have finished : KeepsMarks m' (m'.finishing name outcome) := by
      cases outcome <;> exact .of_eq rfl rfl fun _ => rfl
    exact started.trans (inside.trans finished)

/-! ### Marks from turn to turn -/

section Marks

variable {re : Reentry} [leads : re.Leads KeepsMarks] {s t : OsSignal}
  {outcome : Except Failure Unit} {visits earlier later : List Visit} {visit : Visit}

/-- What a turn does after it cleared the mark of its signal keeps the marks. -/
theorem Turn.keepsMarks (turn : Turn re s m outcome m') (finished : outcome ≠ .error .exhausted) :
    m' = m ∨ KeepsMarks (m.taking s) m' := by
  cases turn with
  | idle idle => exact .inl rfl
  | dropped pending unhandled => exact .inr (Steady.refl _)
  | @handled _ f answer pending handler called =>
    have kept := (leads.call re.holds f [.text s.name] none).related (m.taking s)
    rw [Reentry.invoke] at called
    rw [called] at kept
    exact .inr (kept fun cut => finished (congrArg (Except.map fun _ => ()) cut))

theorem Turn.dispatching (turn : Turn re s m outcome m') (finished : outcome ≠ .error .exhausted)
    (within : m.dispatching = true) : m'.dispatching = true := by
  obtain rfl | kept := turn.keepsMarks finished
  · exact within
  · exact kept.dispatching.trans within

theorem Turn.pending (turn : Turn re s m outcome m') (finished : outcome ≠ .error .exhausted)
    (within : m.dispatching = true) (other : t ≠ s) (here : m.signals.isPending t = true) :
    m'.signals.isPending t = true := by
  obtain rfl | kept := turn.keepsMarks finished
  · exact here
  · exact kept.pending within t ((SignalTable.isPending_take_of_ne other).trans here)

theorem Turn.raised (turn : Turn re s m outcome m') (finished : outcome ≠ .error .exhausted)
    (within : m.dispatching = true) (more : raisings t m.journal < raisings t m'.journal) :
    m'.signals.isPending t = true := by
  obtain rfl | kept := turn.keepsMarks finished
  · exact absurd more (Nat.lt_irrefl _)
  · exact kept.raised within t more

/-- What is pending before turns is pending when its turn comes, and after all of them if it has
none. -/
theorem Proceeds.pending (proceeds : Proceeds re m visits outcome m')
    (finished : outcome ≠ .error .exhausted) (within : m.dispatching = true)
    (distinct : (visits.map Visit.signal).Nodup) (here : m.signals.isPending t = true) :
    (∀ visit ∈ visits, visit.signal = t → visit.before.signals.isPending t = true) ∧
      ((∀ visit ∈ visits, visit.signal ≠ t) → m'.signals.isPending t = true) := by
  induction proceeds with
  | done => exact ⟨fun _ member => absurd member List.not_mem_nil, fun _ => here⟩
  | failed turn =>
    refine ⟨fun visit member _ => ?_, fun others => ?_⟩
    · cases List.mem_singleton.1 member
      exact here
    · exact turn.pending finished within (others _ List.mem_cons_self).symm here
  | @next s m m' m'' visits outcome turn others ih =>
    obtain ⟨notAgain, distinct⟩ := List.nodup_cons.1 distinct
    have within' := turn.dispatching nofun within
    -- Its own turn may clear the mark of a signal, but then no later one is its turn.
    by_cases same : t = s
    · subst same
      refine ⟨?_, fun others => absurd rfl (others _ List.mem_cons_self)⟩
      rintro visit (_ | ⟨_, member⟩) mine
      · exact here
      · exact absurd (List.mem_map.2 ⟨visit, member, mine⟩) notAgain
    · obtain ⟨turns, rest⟩ := ih finished within' distinct (turn.pending nofun within same here)
      refine ⟨?_, fun others => rest fun visit member => others visit (.tail _ member)⟩
      rintro visit (_ | ⟨_, member⟩) mine
      · exact absurd mine.symm same
      · exact turns visit member mine

/-- After any of the turns, the others proceed. -/
theorem Proceeds.split (proceeds : Proceeds re m (earlier ++ visit :: later) outcome m')
    (finished : outcome ≠ .error .exhausted) (within : m.dispatching = true) :
    visit.before.dispatching = true ∧
      (∃ outcome, Turn re visit.signal visit.before outcome visit.after ∧
        outcome ≠ .error .exhausted) ∧
      ∃ outcome, Proceeds re visit.after later outcome m' ∧ outcome ≠ .error .exhausted := by
  induction earlier generalizing m with
  | nil =>
    cases proceeds with
    | failed turn => exact ⟨within, ⟨_, turn, finished⟩, .ok (), .done, nofun⟩
    | next turn others => exact ⟨within, ⟨_, turn, nofun⟩, _, others, finished⟩
  | cons first rest ih =>
    rw [List.cons_append] at proceeds
    generalize whole : rest ++ visit :: later = visits at proceeds
    cases proceeds with
    | failed turn => exact absurd whole (by simp)
    | next turn others => exact ih (whole ▸ others) (turn.dispatching nofun within)

/-- What is raised in a turn is pending when its own turn comes, and after the dispatch if it has
none any more. -/
theorem Proceeds.raised (proceeds : Proceeds re m (earlier ++ visit :: later) outcome m')
    (finished : outcome ≠ .error .exhausted) (within : m.dispatching = true)
    (distinct : ((earlier ++ visit :: later).map Visit.signal).Nodup)
    (more : raisings t visit.before.journal < raisings t visit.after.journal) :
    (∀ next ∈ later, next.signal = t → next.before.signals.isPending t = true) ∧
      ((∀ next ∈ later, next.signal ≠ t) → m'.signals.isPending t = true) := by
  obtain ⟨within', ⟨_, turn, ended⟩, _, others, finished'⟩ := proceeds.split finished within
  refine others.pending finished' (turn.dispatching ended within') ?_ (turn.raised ended within' more)
  rw [List.map_append, List.map_cons, List.nodup_append, List.nodup_cons] at distinct
  exact distinct.2.1.2

end Marks

/-! ### The discipline -/

/-- A handler that a dispatch called is running. -/
def HandlerRuns (activities : List Activity) : Prop :=
  ∃ inner f outer, activities = inner ++ .call f :: .dispatch :: outer

theorem not_handlerRuns {activities : List Activity} (here : activities.head? = some .dispatch)
    (once : activities.count .dispatch ≤ 1) : ¬ HandlerRuns activities := by
  rintro ⟨inner, f, outer, rfl⟩
  cases inner with
  | nil => cases here
  | cons activity inner =>
    cases here
    simp at once

open Invocation in
/-- When dispatch takes a signal, no handler that it called before is running. A safe point in a
dispatch does nothing. Any other one gives the signals their turns in order, and every one unless a
handler fails, whose fault is the outcome; a signal raised in a turn has its own turn later in the
dispatch or is pending at the end, as is a pending signal that has no turn; and afterwards, whatever
the outcome, no dispatch is under way, so that the next safe point dispatches again. -/
theorem safePoint_disciplined (moment : Moment c m) (steps : Nat) (holds : List Hold) :
    (∀ later s handler past, m.journal = later ++ .taken s handler :: past →
      (underWay past).head? = some .dispatch ∧ ¬ HandlerRuns (underWay past)) ∧
    (poll (Interpreter.nested steps holds)).on m =
      (if c.signalPolling then (safePoint (Interpreter.nested steps holds)).on m
        else (.ok (), m)) ∧
    (.dispatch ∈ underWay m.journal →
      (safePoint (Interpreter.nested steps holds)).on m = (.ok (), m)) ∧
    (.dispatch ∉ underWay m.journal → ∀ outcome m',
      (safePoint (Interpreter.nested steps holds)).on m = (outcome, m') →
      outcome ≠ .error .exhausted →
      (∃ visits unvisited last,
        visits.map Visit.signal ++ unvisited = [.interrupt, .terminate, .hangup, .user1, .user2] ∧
        Proceeds (Interpreter.nested steps holds) m.dispatchBegun visits outcome last ∧
        m' = last.dispatchOver ∧ (outcome = .ok () → unvisited = []) ∧
        (∀ earlier visit later, visits = earlier ++ visit :: later →
          ∀ t, raisings t visit.before.journal < raisings t visit.after.journal →
            (∀ next ∈ later, next.signal = t → next.before.signals.isPending t = true) ∧
            ((∀ next ∈ later, next.signal ≠ t) → m'.signals.isPending t = true)) ∧
        ∀ t ∈ unvisited, m.signals.isPending t = true → m'.signals.isPending t = true) ∧
      Moment c m' ∧ .dispatch ∉ underWay m'.journal) := by
  have orderly := moment.orderly
  refine ⟨fun later s handler past split => ?_, ?_, fun within => ?_,
    fun outside outcome m' done finished => ⟨?_, ?_⟩⟩
  · have lawful := split ▸ orderly.lawful
    exact ⟨lawful.fits, not_handlerRuns lawful.fits
      (lawful.of_suffix ⟨later ++ [.taken s handler], by simp⟩).count_dispatch_le⟩
  · rw [← orderly.polling]
    cases polling : m.polling with
    | true => rw [on_poll_of_polling _ polling, if_pos rfl]
    | false => rw [on_poll_of_not_polling _ polling, if_neg Bool.false_ne_true]
  · exact on_safePoint_of_dispatching _ (orderly.dispatching.2 within)
  · have free : m.dispatching = false := by simpa [← orderly.dispatching] using outside
    obtain ⟨visits, unvisited, last, order, proceeds, rfl, all⟩ :=
      safePoint_proceeds _ free done
    have distinct : (visits.map Visit.signal ++ unvisited).Nodup := by
      rw [order]
      decide
    obtain ⟨once, -, apart⟩ := List.nodup_append.1 distinct
    refine ⟨visits, unvisited, last, order, proceeds, rfl, all, ?_, fun t member pending => ?_⟩
    · rintro earlier visit later rfl t more
      exact proceeds.raised finished rfl once more
    · refine (proceeds.pending finished rfl once pending).2 fun visit visited same => ?_
      exact apart _ (List.mem_map_of_mem visited) t member same
  · have balanced := (leads_safePoint (R := Balanced c) (Interpreter.nested steps holds)).related m
    rw [done] at balanced
    obtain ⟨restores, ends⟩ := balanced finished
    rw [restores.underWay]
    exact ⟨ends moment, outside⟩

/-- A machine with a pending signal, whose handler raises it again, and another pending signal
without a handler. -/
def rung : Machine :=
  let heap := ((Interpreter.blank {}).heap.newFunction
    (.native "h" (.body [.apply (.raiseSignal "SIGUSR1") []]))).2
  let m := { Interpreter.blank {} with heap }
  let m := { m with signals := m.signals.register .user1 ⟨0⟩ }
  let m := { m with signals := m.signals.raise .user2, journal := .raised .user2 :: m.journal }
  { m with signals := m.signals.raise .user1, journal := .raised .user1 :: m.journal }

theorem moment_rung : Moment {} rung :=
  .change (.change (.change (.change .blank (.heap _ _)) (.register _ .user1 _))
    (.raise _ .user2)) (.raise _ .user1)

/-- All signals have their turns; the first of the two is pending again afterwards, and the other
one is not. -/
theorem safePoint_disciplined_rung :
    Moment {} rung ∧ ∃ visits last m',
      (Invocation.safePoint (Interpreter.nested 1 [])).on rung = (.ok (), m') ∧
      visits.map Visit.signal = [.interrupt, .terminate, .hangup, .user1, .user2] ∧
      Proceeds (Interpreter.nested 1 []) rung.dispatchBegun visits (.ok ()) last ∧
      .dispatch ∉ underWay m'.journal ∧ m'.signals.pending = [.user1] := by
  have success : ((Invocation.safePoint (Interpreter.nested 1 [])).on rung).1 = .ok () := by
    decide +kernel
  have pending : ((Invocation.safePoint (Interpreter.nested 1 [])).on rung).2.signals.pending =
      [.user1] := by decide +kernel
  cases done : (Invocation.safePoint (Interpreter.nested 1 [])).on rung with
  | mk outcome m' =>
    rw [done] at success pending
    obtain rfl : outcome = .ok () := success
    obtain ⟨-, -, -, dispatches⟩ := safePoint_disciplined moment_rung 1 []
    obtain ⟨⟨visits, unvisited, last, order, proceeds, -, all, -⟩, -, free⟩ :=
      dispatches (by decide) _ m' done nofun
    rw [all rfl, List.append_nil] at order
    exact ⟨moment_rung, visits, last, m', rfl, order, proceeds, free, pending⟩

end ScriptCore
