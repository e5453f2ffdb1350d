import ScriptCore.Proofs.Conduct.Moments
import ScriptCore.Proofs.Conduct.Registry

/-!
Packages are initialised at most once, and safely when they are requested meanwhile.

An initialiser starts only after its package was registered with it and before anything else happens
to the package. Unless the package is registered again, requests for it are refused while the
initialiser runs, and have its answer when it ended. The argument follows the initialisations of one
package among what is under way: without a registration none is added, and each end takes the
innermost away. So an end that does not belong to the last start belongs to an older one, of an
initialiser in which the package was registered again; that end takes the place of the later answer.
-/

namespace ScriptCore

variable {c : Config} {m : Machine} {name : String} {initializer : Initializer}
  {past later : List Event}

/-! ### Initialisations of a package -/

/-- When the initialisations of a package that are among the activities started, innermost first. -/
def starts (name : String) (activities : List Activity) : List Nat :=
  activities.filterMap fun
    | .initialization other since => if other = name then some since else none
    | _ => none

theorem starts_cons_self (name : String) (since : Nat) (activities : List Activity) :
    starts name (.initialization name since :: activities) = since :: starts name activities := by
  simp [starts]

theorem mem_starts {since : Nat} {activities : List Activity} :
    since ∈ starts name activities ↔ .initialization name since ∈ activities := by
  rw [starts, List.mem_filterMap]
  constructor
  · rintro ⟨activity, member, same⟩
    cases activity with
    | initialization other began =>
      simp only [Option.ite_none_right_eq_some, Option.some.injEq] at same
      obtain ⟨rfl, rfl⟩ := same
      exact member
    | call | dispatch => cases same
  · exact fun member => ⟨_, member, if_pos rfl⟩

/-- What is under way began before now. -/
theorem lt_of_underWay {since : Nat} (inside : .initialization name since ∈ underWay past) :
    since < past.length := by
  induction past with
  | nil => cases inside
  | cons event rest ih =>
    cases event with
    | initializerStarted other initializer =>
      rw [underWay, List.mem_cons, Activity.initialization.injEq] at inside
      obtain ⟨-, rfl⟩ | before := inside
      · exact Nat.lt_succ_self _
      · exact Nat.lt_succ_of_lt (ih before)
    | entered | dispatchBegan =>
      rw [underWay, List.mem_cons] at inside
      exact Nat.lt_succ_of_lt (ih (inside.resolve_left (by rintro ⟨⟩)))
    | left | dispatchEnded | initializerEnded =>
      exact Nat.lt_succ_of_lt (ih (List.mem_of_mem_tail inside))
    | _ => exact Nat.lt_succ_of_lt (ih inside)

/-- The end of something that is no initialisation of the package leaves those as they are. -/
theorem starts_tail {activity : Activity} (inside : (underWay past).head? = some activity)
    (other : ∀ since, activity ≠ .initialization name since) :
    starts name (underWay past).tail = starts name (underWay past) := by
  obtain ⟨outer, here⟩ := List.head?_eq_some_iff.1 inside
  rw [here, List.tail_cons, starts, starts, List.filterMap_cons_none]
  cases activity with
  | initialization package since =>
    refine if_neg ?_
    rintro rfl
    exact other since rfl
  | call | dispatch => rfl

/-- What becomes of the initialisations of a package: either those under way are the same ones all
along, and nothing touches the package, or the innermost of them is over. -/
inductive Continues (name : String) (past later : List Event) : Prop
  | quiet (quiet : Quiet name later)
      (same : starts name (underWay (later ++ past)) = starts name (underWay past))
  | ended (since : Nat) (rest : List Nat) (first : starts name (underWay past) = since :: rest)
      (part : starts name (underWay (later ++ past)) <:+ rest)

theorem Continues.cons {event : Event} (before : Continues name past later)
    (apart : ¬ event.Touches name)
    (equal : starts name (underWay (event :: (later ++ past))) =
      starts name (underWay (later ++ past))) : Continues name past (event :: later) := by
  cases before with
  | quiet quiet same => exact .quiet (quiet.cons apart) (equal.trans same)
  | ended since rest first part =>
    refine .ended since rest first ?_
    rw [List.cons_append, equal]
    exact part

/-- The end of an initialisation of the package takes the innermost one away. -/
theorem Continues.ending {since : Nat} (before : Continues name past later)
    (inside : (underWay (later ++ past)).head? = some (.initialization name since))
    (outcome : Except Fault Table) :
    Continues name past (.initializerEnded name outcome :: later) := by
  obtain ⟨outer, shape⟩ := List.head?_eq_some_iff.1 inside
  have first : starts name (underWay (later ++ past)) = since :: starts name outer := by
    rw [shape, starts_cons_self]
  have rest : starts name (underWay (.initializerEnded name outcome :: (later ++ past))) =
      starts name outer := by rw [underWay, shape, List.tail_cons]
  cases before with
  | quiet quiet same => exact .ended since (starts name outer) (same.symm.trans first) ⟨[], rest⟩
  | ended began older whole part =>
    refine .ended began older whole ?_
    rw [List.cons_append, rest]
    exact (first ▸ List.suffix_cons _ _).trans part

/-- Unless a package is registered again, none of its initialisations starts. -/
theorem continues (lawful : Lawful c (later ++ past)) (begun : (Registry.after past).Begun name)
    (kept : Unregistered name later) : Continues name past later := by
  induction later with
  | nil => exact .quiet (.nil name) rfl
  | cons event later ih =>
    have fits : event.Fits c (later ++ past) := lawful.head
    have kept' : Unregistered name later := fun initializer member =>
      kept initializer (.tail _ member)
    have before := ih lawful.tail kept'
    cases event with
    | packageRegistered other initializer =>
      exact before.cons (fun here => kept initializer (here ▸ List.mem_cons_self)) rfl
    | initializerStarted other initializer =>
      -- A start needs a package that is to be started, and only a registration makes it one.
      have apart : other ≠ name := by
        rintro rfl
        obtain ⟨table, asked⟩ := fits
        exact begun_after begun kept' table initializer (Registry.request_eq_start_iff.1 asked)
      exact before.cons apart (List.filterMap_cons_none (if_neg apart))
    | initializerEnded other outcome =>
      obtain ⟨since, inside⟩ := fits
      by_cases here : other = name
      · subst here
        exact before.ending inside outcome
      · refine before.cons here (starts_tail inside fun since equal => here ?_)
        cases equal
        rfl
    | left callee depth => exact before.cons id (starts_tail fits.2 nofun)
    | dispatchEnded => exact before.cons id (starts_tail fits nofun)
    | entered | dispatchBegan => exact before.cons id (List.filterMap_cons_none rfl)
    | _ => exact before.cons id rfl

/-! ### From start to end -/

/-- A package whose initialiser has just started. -/
theorem package?_started (fits : (Event.initializerStarted name initializer).Fits c past) :
    (Registry.after (.initializerStarted name initializer :: past)).package? name =
      some ⟨.empty, .initializing⟩ := by
  obtain ⟨table, asked⟩ := fits
  rw [Registry.after,
    Registry.snd_request_of_unstarted (Registry.request_eq_start_iff.1 asked),
    Registry.package?_setPackage_self]

/-- A package whose initialisation has just ended binds what the initialiser filled, with what was
registered meanwhile set over it, or keeps the fault. -/
theorem package?_ended {table : Table} {state : PackageState}
    (found : (Registry.after past).package? name = some ⟨table, state⟩)
    (outcome : Except Fault Table) :
    (Registry.after (.initializerEnded name outcome :: past)).package? name =
      some (match outcome with
        | .ok filled => ⟨filled.insertAll table.toList, .ready⟩
        | .error fault => ⟨table, .failed fault⟩) := by
  cases outcome with
  | ok filled =>
    rw [Registry.after, Registry.complete, Registry.package?_setPackage_self, found]
    rfl
  | error fault =>
    rw [Registry.after, Registry.abandon, Registry.package?_setPackage_self, found]
    rfl

section Running

variable (lawful : Lawful c (later ++ .initializerStarted name initializer :: past))
  (kept : Unregistered name later)
  (running : .initialization name past.length ∈
    underWay (later ++ .initializerStarted name initializer :: past))

include lawful kept running

/-- While an initialisation runs, nothing touches its package unless that is registered again. -/
theorem quiet_of_running :
    Quiet name later ∧
      starts name (underWay (later ++ .initializerStarted name initializer :: past)) =
        past.length :: starts name (underWay past) := by
  have here : starts name (underWay (.initializerStarted name initializer :: past)) =
      past.length :: starts name (underWay past) := starts_cons_self ..
  have begun := Registry.Begun.of_package? (package?_started lawful.fits) nofun
  cases continues lawful begun kept with
  | quiet quiet same => exact ⟨quiet, same.trans here⟩
  | ended began rest first part =>
    -- What is left of the initialisations began before this one, which is still among them.
    cases here.symm.trans first
    have before := mem_starts.1 (part.subset (mem_starts.2 running))
    exact absurd (lt_of_underWay before) (Nat.lt_irrefl _)

/-- While an initialisation runs, its package has the symbols registered meanwhile. -/
theorem package?_running :
    ∃ table, (Registry.after (later ++ .initializerStarted name initializer :: past)).package?
        name = some ⟨table, .initializing⟩ ∧
      table.toList = Entries.putAll [] (symbols name later) :=
  package?_after_quiet (quiet_of_running lawful kept running).1 (package?_started lawful.fits)

end Running

section Ended

variable {since during : List Event} {outcome : Except Fault Table}
  (lawful : Lawful c (since ++ .initializerEnded name outcome ::
    (during ++ .initializerStarted name initializer :: past)))
  (keptDuring : Unregistered name during) (keptSince : Unregistered name since)
  (mine : (underWay (during ++ .initializerStarted name initializer :: past)).head? =
    some (.initialization name past.length))
  (alone : ∀ began, .initialization name began ∉ underWay past)

include lawful keptDuring keptSince mine alone

/-- Once its only initialisation is over, nothing touches a package unless it is registered
again. -/
theorem quiet_of_ended : Quiet name since := by
  have before : Lawful c (during ++ .initializerStarted name initializer :: past) :=
    lawful.of_append.tail
  have running := List.mem_of_mem_head? (Option.mem_def.2 mine)
  obtain ⟨table, found, -⟩ := package?_running before keptDuring running
  have begun := Registry.Begun.of_package? (package?_ended found outcome)
    (by cases outcome <;> rintro _ ⟨⟩)
  have none : starts name (underWay past) = [] :=
    List.eq_nil_iff_forall_not_mem.2 fun began member => alone began (mem_starts.1 member)
  -- Nothing is left that could end, so the later events are quiet.
  have gone : starts name (underWay (.initializerEnded name outcome ::
      (during ++ .initializerStarted name initializer :: past))) = [] := by
    obtain ⟨outer, shape⟩ := List.head?_eq_some_iff.1 mine
    have one := (quiet_of_running before keptDuring running).2
    rw [shape, starts_cons_self, none] at one
    rw [underWay, shape, List.tail_cons]
    exact (List.cons.inj one).2
  cases continues lawful begun keptSince with
  | quiet quiet same => exact quiet
  | ended began rest first part => exact absurd (gone.symm.trans first) (by rintro ⟨⟩)

/-- What a package is once its only initialisation is over, and until it is registered again. -/
theorem package?_since_ended :
    ∃ table, (Registry.after (since ++ .initializerEnded name outcome ::
        (during ++ .initializerStarted name initializer :: past))).package? name =
      some (match outcome with
        | .ok _ => ⟨table, .ready⟩
        | .error fault => ⟨table, .failed fault⟩) ∧
      ∀ filled, outcome = .ok filled → table.toList =
        Entries.putAll (Entries.putAll filled.toList (symbols name during)) (symbols name since) := by
  have before : Lawful c (during ++ .initializerStarted name initializer :: past) :=
    lawful.of_append.tail
  have running := List.mem_of_mem_head? (Option.mem_def.2 mine)
  obtain ⟨gathered, found, entries⟩ := package?_running before keptDuring running
  have quiet := quiet_of_ended lawful keptDuring keptSince mine alone
  have ended := package?_ended found outcome
  cases outcome with
  | ok filled =>
    obtain ⟨table, found', entries'⟩ := package?_after_quiet quiet ended
    refine ⟨table, found', fun other same => ?_⟩
    cases same
    have distinct : (([] : List (String × Value)).map Prod.fst).Nodup := List.nodup_nil
    rw [entries', OrderedIndex.toList_insertAll, entries, Entries.putAll_putAll _ distinct]
    rfl
  | error fault =>
    obtain ⟨table, found', -⟩ := package?_after_quiet quiet ended
    exact ⟨table, found', nofun⟩

end Ended

/-! ### Requests -/

/-- At the machine every request for the package has the answer and changes nothing; an import
makes a new object of the bindings. -/
def Machine.Answers (m : Machine) (name : String) (answer : Except Fault Table) : Prop :=
  ∀ steps holds,
    (Interpreter.ensure (steps + 1) holds name).on m = (answer.mapError .fault, m) ∧
    (Packages.importPackage (Interpreter.nested (steps + 1) holds) name).on m =
      match answer with
      | .ok table =>
        (.ok (m.heap.newObject table).1, { m with heap := (m.heap.newObject table).2 })
      | .error fault => (.error (.fault fault), m)

theorem answers_of_refused {fault : Fault} (refused : (m.registry.request name).1 = .refused fault) :
    m.Answers name (.error fault) := by
  intro steps holds
  have requested : (Interpreter.ensure (steps + 1) holds name).on m = (.error (.fault fault), m) :=
    Packages.on_ensure_of_refused refused
  refine ⟨requested, ?_⟩
  have same : (Interpreter.nested (steps + 1) holds).ensure name =
      Interpreter.ensure (steps + 1) holds name := rfl
  rw [Packages.importPackage, Run.on_bind, same, requested]

theorem answers_of_ready {table : Table} (ready : (m.registry.request name).1 = .ready table) :
    m.Answers name (.ok table) := by
  intro steps holds
  have requested : (Interpreter.ensure (steps + 1) holds name).on m = (.ok table, m) :=
    Packages.on_ensure_of_ready ready
  exact ⟨requested, Run.on_bind_of_ok requested _⟩

/-- Setting and removing entries of one object concerns no other object and no package. -/
theorem modifying_concerns {r other : Ref .object} (apart : r ≠ other) (key : String)
    (value : Value) (m : Machine) :
    (((Operations.setEntry r key value).on m).2.heap.entries other = m.heap.entries other ∧
      ((Operations.setEntry r key value).on m).2.registry = m.registry) ∧
    ((Operations.removeEntry r key).on m).2.heap.entries other = m.heap.entries other ∧
      ((Operations.removeEntry r key).on m).2.registry = m.registry :=
  ⟨⟨m.heap.entries_modifyEntries_of_ne apart _, rfl⟩,
    m.heap.entries_modifyEntries_of_ne apart _, rfl⟩

/-! ### Packages over a run -/

/-- An initialiser starts only if its package was registered with it and nothing touched the package
since, so once for each registration. Until the package is registered again, requests are refused
while the initialiser runs; and after it ended they have its answer, if no older initialiser of the
package was running when it started. No request that is answered so changes anything, and what a
program does to an imported object concerns no package and no other object. -/
theorem initialization_once (moment : Moment c m)
    (split : m.journal = later ++ .initializerStarted name initializer :: past) :
    Fresh name initializer past ∧
    (Unregistered name later →
      (.initialization name past.length ∈ underWay m.journal →
        m.Answers name (.error { cause := .packageInitializing name })) ∧
      ∀ since outcome during, later = since ++ .initializerEnded name outcome :: during →
        (underWay (during ++ .initializerStarted name initializer :: past)).head? =
          some (.initialization name past.length) →
        (∀ began, .initialization name began ∉ underWay past) →
        ∃ answer, m.Answers name answer ∧
          match outcome with
          | .ok filled => ∃ table, answer = .ok table ∧ table.toList =
              Entries.putAll (Entries.putAll filled.toList (symbols name during))
                (symbols name since)
          | .error fault => answer = .error fault) ∧
    (m.heap.objects.get? m.heap.nextObject = none ∧
      ∀ table, (m.heap.newObject table).1 = .object m.heap.nextObject ∧
        (m.heap.newObject table).2.entries m.heap.nextObject = table) ∧
    ∀ (r other : Ref .object) key value (here : Machine), r ≠ other →
      (((Operations.setEntry r key value).on here).2.heap.entries other =
          here.heap.entries other ∧
        ((Operations.setEntry r key value).on here).2.registry = here.registry) ∧
      ((Operations.removeEntry r key).on here).2.heap.entries other =
          here.heap.entries other ∧
        ((Operations.removeEntry r key).on here).2.registry = here.registry := by
  have orderly := moment.orderly
  have lawful := split ▸ orderly.lawful
  refine ⟨?_, fun kept => ⟨fun running => ?_, ?_⟩, ⟨m.heap.get?_nextObject, fun table =>
    ⟨m.heap.newObject_fst table, m.heap.entries_newObject table⟩⟩,
    fun r other key value here apart => modifying_concerns apart key value here⟩
  · obtain ⟨table, asked⟩ := lawful.fits
    exact fresh_of_unstarted (Registry.request_eq_start_iff.1 asked)
  · rw [split] at running
    obtain ⟨table, found, -⟩ := package?_running lawful kept running
    rw [← split, ← orderly.registry] at found
    exact answers_of_refused (Registry.request_of_initializing found)
  · rintro since outcome during rfl mine alone
    have keptDuring : Unregistered name during := fun initializer member =>
      kept initializer (List.mem_append_right _ (.tail _ member))
    have keptSince : Unregistered name since := fun initializer member =>
      kept initializer (List.mem_append_left _ member)
    have shape : since ++ .initializerEnded name outcome :: during ++
        .initializerStarted name initializer :: past = since ++ .initializerEnded name outcome ::
          (during ++ .initializerStarted name initializer :: past) := by simp
    rw [shape] at split lawful
    obtain ⟨table, found, bindings⟩ :=
      package?_since_ended lawful keptDuring keptSince mine alone
    rw [← split, ← orderly.registry] at found
    cases outcome with
    | ok filled =>
      exact ⟨.ok table, answers_of_ready (Registry.request_of_ready found), table, rfl,
        bindings filled rfl⟩
    | error fault =>
      exact ⟨.error fault, answers_of_refused (Registry.request_of_failed found), rfl⟩

/-! ### Initialisers that run -/

/-- Registers the package. -/
def withInitializer (initializer : Initializer) (m : Machine) : Machine :=
  ((Packages.register "p" initializer).on m).2

/-- Requests the package. -/
def requested (m : Machine) : Machine := ((Interpreter.ensure 1 [] "p").on m).2

theorem moment_withInitializer (moment : Moment c m) (initializer : Initializer) :
    Moment c (withInitializer initializer m) :=
  .change moment (.registerPackage m "p" initializer)

theorem moment_requested (moment : Moment c m)
    (finished : ((Interpreter.ensure 1 [] "p").on m).1 ≠ .error .exhausted) :
    Moment c (requested m) := Interpreter.moment_ensure moment finished

/-- An initialiser that registers a symbol for its own package. -/
def naming : Initializer := .body ⟨0⟩ [.apply (.registerSymbol "p" "x") [.literal .null]]

/-- The machine in which a request starts that initialiser. -/
def started : Machine :=
  let m := withInitializer naming (Interpreter.blank {})
  m.starting "p" naming (m.registry.request "p").2

/-- The machine in which its body has registered the symbol. -/
def initializing : Machine :=
  ((Interpreter.runInitializer (Interpreter.nested 0 []) naming .empty).on started).2

/-- The machine after the request. -/
def initialized : Machine := requested (withInitializer naming (Interpreter.blank {}))

theorem moment_initializing : Moment {} initializing := by
  have start : Moment {} started := .start (moment_withInitializer .blank naming) rfl
  have performs : Performs True True fun re =>
      Interpreter.runInitializer re naming .empty :=
    Interpreter.performs_runInitializer (fun _ => trivial) (fun _ => trivial) .empty
  exact ((performs.leads (R := Balanced {}) (Interpreter.nested 0 [])).related started
    (by decide +kernel)).moment start

/-- In a run of the initialiser the package is refused, and it binds the symbol afterwards. -/
theorem initialization_once_initialized :
    Moment {} initializing ∧ Moment {} initialized ∧
      initialized = initializing.finishing "p" (.ok .empty) ∧
      initializing.Answers "p" (.error { cause := .packageInitializing "p" }) ∧
      ∃ table, initialized.Answers "p" (.ok table) ∧ table.toList = [("x", .null)] := by
  have moment : Moment {} initialized :=
    moment_requested (moment_withInitializer .blank naming) (by decide +kernel)
  have split : initializing.journal = [.symbolRegistered "p" "x" .null] ++
      .initializerStarted "p" naming :: [.packageRegistered "p" naming] := rfl
  have ended : initialized.journal =
      [.initializerEnded "p" (.ok .empty), .symbolRegistered "p" "x" .null] ++
        .initializerStarted "p" naming :: [.packageRegistered "p" naming] := rfl
  obtain ⟨-, running, -⟩ := initialization_once moment_initializing split
  obtain ⟨-, later, -⟩ := initialization_once moment ended
  obtain ⟨answer, answers, table, rfl, bindings⟩ := (later (by simp [Unregistered])).2 []
    (.ok .empty) [.symbolRegistered "p" "x" .null] rfl rfl nofun
  refine ⟨moment_initializing, moment, rfl, ?_, table, answers, ?_⟩
  · exact (running (by simp [Unregistered])).1 List.mem_cons_self
  · simpa [symbols, Entries.putAll, Entries.put, OrderedIndex.toList_empty] using bindings

/-! ### An initialisation within another one -/

/-- A body that gives an object with one entry. -/
def giving : List Expr :=
  [.apply (.object ["x"]) [.literal (.number (Binary64.ofNat 1))]]

/-- An initialiser that registers its package anew, with that body, requests it and then fails. -/
def outliving : Initializer := .body ⟨0⟩
  [.package "p" giving, .apply (.importPackage "p") [], .apply .throwValue [.literal (.text "late")]]

/-- The machine after such an initialiser ran: the later initialiser succeeded within it. -/
def outlived : Machine :=
  ((Interpreter.ensure 2 [] "p").on (withInitializer outliving (Interpreter.blank {}))).2

/-- The events, latest first, are those of a run in which an initialiser registered the package
again, the later initialiser succeeded, and the earlier one failed. -/
def outlives : List Event → Bool
  | [.initializerEnded "p" (.error _), .initializerEnded "p" (.ok _), .initializerStarted "p" _,
      .packageRegistered "p" _, .initializerStarted "p" _, .packageRegistered "p" _] => true
  | _ => false

theorem eq_of_outlives {events : List Event} (outlived : outlives events = true) :
    ∃ fault filled inner again outer first,
      events = [.initializerEnded "p" (.error fault), .initializerEnded "p" (.ok filled),
        .initializerStarted "p" inner, .packageRegistered "p" again,
        .initializerStarted "p" outer, .packageRegistered "p" first] := by
  unfold outlives at outlived
  split at outlived
  · exact ⟨_, _, _, _, _, _, rfl⟩
  · cases outlived

/-- An initialisation that ended need not decide the answer, though its package was not registered
again: the end of an older one, which was running all along, takes its place. -/
theorem answer_replaced :
    ¬ ∀ c m, Moment c m → ∀ name initializer since outcome during past,
      m.journal = since ++ .initializerEnded name outcome ::
        (during ++ .initializerStarted name initializer :: past) →
      (underWay (during ++ .initializerStarted name initializer :: past)).head? =
        some (.initialization name past.length) →
      Unregistered name during → Unregistered name since →
      ∃ answer, m.Answers name answer ∧
        match outcome with
        | .ok _ => ∃ table, answer = .ok table
        | .error fault => answer = .error fault := by
  intro decides
  have moment : Moment {} outlived :=
    Interpreter.moment_ensure (moment_withInitializer .blank outliving) (by decide +kernel)
  obtain ⟨fault, filled, inner, again, outer, first, journal⟩ :=
    eq_of_outlives (show outlives outlived.journal = true by decide +kernel)
  obtain ⟨answer, answers, table, rfl⟩ := decides {} outlived moment "p" inner
    [.initializerEnded "p" (.error fault)] (.ok filled) [] _ journal rfl nofun
    (by simp [Unregistered])
  have refused : ((Interpreter.ensure 1 [] "p").on outlived).1 =
      .error (.fault { cause := .thrown (.text "late") "late" }) := by decide +kernel
  cases (congrArg Prod.fst (answers 0 []).1).symm.trans refused

end ScriptCore
