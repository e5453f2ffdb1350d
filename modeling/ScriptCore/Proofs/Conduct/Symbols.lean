import ScriptCore.Proofs.Conduct.Initialization

/-!
Where the symbols of a package are.

A symbol that is registered for a package goes to the table that the package has in the registry.
From there the next initialiser of the package takes it along, and brings it back when it succeeds.
So at every moment the symbol is bound by the package, or an initialisation under way was handed it;
and while none is under way, the next initialiser is handed it and every request that succeeds gives
it. There is one exception: an initialiser that fails brings nothing back. The symbols that it was
handed are gone, and the package binds only those registered while it ran.
-/

namespace ScriptCore

variable {c : Config} {m : Machine} {name key : String} {past later : List Event} {event : Event}

/-! ### Places of a symbol -/

/-- The package has the symbol in its table. -/
def Registry.Binds (registry : Registry) (name key : String) : Prop :=
  ∃ content, registry.package? name = some content ∧ key ∈ content.bindings.keys

/-- The initialisation of the package that started after so many events was handed the symbol. -/
def Handed (name key : String) (since : Nat) (events : List Event) : Prop :=
  ∃ during initializer before, events = during ++ .initializerStarted name initializer :: before ∧
    before.length = since ∧ (Registry.after before).Binds name key

/-- The package has the symbol, or an initialisation of it that is under way was handed it. -/
def Held (name key : String) (events : List Event) : Prop :=
  (Registry.after events).Binds name key ∨
    ∃ since, .initialization name since ∈ underWay events ∧ Handed name key since events

theorem Handed.cons {since : Nat} (handed : Handed name key since past) (event : Event) :
    Handed name key since (event :: past) := by
  obtain ⟨during, initializer, before, rfl, length, binds⟩ := handed
  exact ⟨event :: during, initializer, before, rfl, length, binds⟩

/-- The table that an initialisation starts with is the one that the package had. -/
theorem Handed.table {since : Nat} (handed : Handed name key since past)
    (lawful : Lawful c past) :
    ∃ during initializer before table,
      past = during ++ .initializerStarted name initializer :: before ∧ before.length = since ∧
      ((Registry.after before).request name).1 = .start initializer table ∧ key ∈ table.keys := by
  obtain ⟨during, initializer, before, rfl, length, content, found, bound⟩ := handed
  obtain ⟨table, asked⟩ := lawful.fits
  have known := Registry.request_eq_start_iff.1 asked
  cases found.symm.trans known
  exact ⟨during, initializer, before, table, rfl, length, asked, bound⟩

/-! ### What events do to symbols -/

/-- The event is not the end of an initialisation that was handed the symbol and does not bring it
back. -/
def Event.Returns (name key : String) (past : List Event) (event : Event) : Prop :=
  ∀ outcome since, event = .initializerEnded name outcome →
    (underWay past).head? = some (.initialization name since) → Handed name key since past →
    ∃ filled, outcome = .ok filled ∧ key ∈ filled.keys

namespace Registry

theorem Binds.of_eq {registry registry' : Registry} (binds : registry.Binds name key)
    (same : registry'.package? name = registry.package? name) : registry'.Binds name key := by
  obtain ⟨content, found, bound⟩ := binds
  exact ⟨content, same.trans found, bound⟩

theorem binds_registerSymbol_self (registry : Registry) (name key : String) (value : Value) :
    (registry.registerSymbol name key value).Binds name key :=
  ⟨_, package?_setPackage_self .., (OrderedIndex.mem_keys_set ..).2 (.inl rfl)⟩

theorem Binds.registerSymbol {registry : Registry} (binds : registry.Binds name key)
    (package other : String) (value : Value) :
    (registry.registerSymbol package other value).Binds name key := by
  by_cases same : name = package
  · subst same
    obtain ⟨content, found, bound⟩ := binds
    refine ⟨_, package?_setPackage_self .., (OrderedIndex.mem_keys_set ..).2 (.inr ?_)⟩
    rw [found]
    exact bound
  · exact binds.of_eq (package?_setPackage_of_ne same _)

theorem Binds.register {registry : Registry} (binds : registry.Binds name key)
    (initializer : Initializer) : (registry.register name initializer).Binds name key := by
  obtain ⟨content, found, bound⟩ := binds
  refine ⟨_, package?_setPackage_self .., ?_⟩
  rw [found]
  exact bound

theorem Binds.abandon {registry : Registry} (binds : registry.Binds name key) (fault : Fault) :
    (registry.abandon name fault).Binds name key := by
  obtain ⟨content, found, bound⟩ := binds
  refine ⟨_, package?_setPackage_self .., ?_⟩
  rw [found]
  exact bound

/-- What an initialiser filled is bound, and what was registered meanwhile. -/
theorem binds_complete {registry : Registry} {filled : Table}
    (placed : key ∈ filled.keys ∨ registry.Binds name key) :
    (registry.complete name filled).2.Binds name key := by
  refine ⟨_, package?_setPackage_self .., (OrderedIndex.mem_keys_insertAll ..).2 ?_⟩
  obtain brought | ⟨content, found, bound⟩ := placed
  · exact .inl brought
  · rw [found]
    exact .inr bound

end Registry

/-- The end of something else leaves an initialisation of the package under way. -/
theorem mem_tail_underWay {since : Nat} {activity : Activity}
    (inside : .initialization name since ∈ underWay past)
    (head : (underWay past).head? = some activity) (other : activity ≠ .initialization name since) :
    .initialization name since ∈ (underWay past).tail := by
  obtain ⟨outer, shape⟩ := List.head?_eq_some_iff.1 head
  rw [shape, List.mem_cons] at inside
  rw [shape]
  exact inside.resolve_left (Ne.symm other)

/-- The end of an initialisation of the package keeps a symbol in one of its places, unless the
initialiser was handed the symbol and does not bring it back. -/
theorem Held.ended {outcome : Except Fault Table} {began : Nat} (held : Held name key past)
    (head : (underWay past).head? = some (.initialization name began))
    (returns : (Event.initializerEnded name outcome).Returns name key past) :
    Held name key (.initializerEnded name outcome :: past) := by
  obtain binds | ⟨since, inside, handed⟩ := held
  · refine .inl ?_
    cases outcome with
    | ok filled => exact Registry.binds_complete (.inr binds)
    | error fault => exact binds.abandon fault
  · by_cases same : since = began
    · subst same
      obtain ⟨filled, rfl, brought⟩ := returns outcome since rfl head handed
      exact .inl (Registry.binds_complete (.inl brought))
    · refine .inr ⟨since, mem_tail_underWay inside head fun equal => same ?_, handed.cons _⟩
      cases equal
      rfl

/-- An event keeps a symbol in one of its places, unless it ends an initialisation that does not
bring it back. -/
theorem Held.cons (held : Held name key past) (fits : event.Fits c past)
    (returns : event.Returns name key past) : Held name key (event :: past) := by
  -- What ends here is no initialisation of the package, so none of those is over.
  have still : ∀ {activity : Activity}, (underWay past).head? = some activity →
      underWay (event :: past) = (underWay past).tail →
      (∀ since, activity ≠ .initialization name since) →
      (∃ since, .initialization name since ∈ underWay past ∧ Handed name key since past) →
      ∃ since, .initialization name since ∈ underWay (event :: past) ∧
        Handed name key since (event :: past) := by
    rintro activity head popped other ⟨since, inside, handed⟩
    rw [popped]
    exact ⟨since, mem_tail_underWay inside head (other since), handed.cons event⟩
  cases event with
  | packageRegistered other initializer =>
    refine held.imp (fun binds => ?_) fun ⟨since, inside, handed⟩ => ⟨since, inside, handed.cons _⟩
    by_cases same : name = other
    · exact same ▸ binds.register initializer
    · exact binds.of_eq (Registry.package?_setPackage_of_ne same _)
  | symbolRegistered package other value =>
    exact held.imp (fun binds => binds.registerSymbol package other value)
      fun ⟨since, inside, handed⟩ => ⟨since, inside, handed.cons _⟩
  | initializerStarted other initializer =>
    obtain binds | ⟨since, inside, handed⟩ := held
    · by_cases same : other = name
      · -- The initialiser takes the table along.
        subst same
        exact .inr ⟨past.length, List.mem_cons_self, [], initializer, past, rfl, rfl, binds⟩
      · exact .inl (binds.of_eq (Registry.package?_request_of_ne (Ne.symm same)))
    · exact .inr ⟨since, List.mem_cons_of_mem _ inside, handed.cons _⟩
  | initializerEnded other outcome =>
    obtain ⟨began, head⟩ := fits
    by_cases same : other = name
    · subst same
      exact held.ended head returns
    · have apart : ¬ (Event.initializerEnded other outcome).Touches name := same
      refine held.imp (fun binds => binds.of_eq (package?_after_other apart rfl)) ?_
      refine still head rfl fun since equal => same ?_
      cases equal
      rfl
  | left callee depth => exact held.imp id (still fits.2 rfl nofun)
  | dispatchEnded => exact held.imp id (still fits rfl nofun)
  | entered | dispatchBegan =>
    exact held.imp id fun ⟨since, inside, handed⟩ =>
      ⟨since, List.mem_cons_of_mem _ inside, handed.cons _⟩
  | refused | raised | taken =>
    exact held.imp id fun ⟨since, inside, handed⟩ => ⟨since, inside, handed.cons _⟩

/-! ### Initialisers that insert -/

/-- An initialiser of the package that succeeds has filled a table with all names of the one that it
was handed. -/
def Inserting (name : String) (events : List Event) : Prop :=
  ∀ since filled during initializer before table,
    events = since ++ .initializerEnded name (.ok filled) ::
      (during ++ .initializerStarted name initializer :: before) →
    (underWay (during ++ .initializerStarted name initializer :: before)).head? =
      some (.initialization name before.length) →
    ((Registry.after before).request name).1 = .start initializer table →
    table.keys ⊆ filled.keys

theorem Inserting.cons (inserting : Inserting name past)
    (other : ∀ filled, event ≠ .initializerEnded name (.ok filled)) :
    Inserting name (event :: past) := by
  intro since filled during initializer before table split
  cases since with
  | nil => exact absurd (List.cons.inj split).1 (other filled)
  | cons _ since =>
    exact inserting since filled during initializer before table (List.cons.inj split).2

/-- The end of an initialiser that inserted. -/
theorem Inserting.ended (inserting : Inserting name past) {during before : List Event}
    {initializer : Initializer} {table filled : Table}
    (split : past = during ++ .initializerStarted name initializer :: before)
    (mine : (underWay past).head? = some (.initialization name before.length))
    (asked : ((Registry.after before).request name).1 = .start initializer table)
    (inserted : table.keys ⊆ filled.keys) :
    Inserting name (.initializerEnded name (.ok filled) :: past) := by
  intro since filled' during' initializer' before' table' split' mine' asked'
  cases since with
  | cons event since =>
    exact inserting since filled' during' initializer' before' table' (List.cons.inj split').2 mine'
      asked'
  | nil =>
    -- The events tell which initialisation ended, so it is the given one.
    obtain ⟨ended, same⟩ := List.cons.inj split'
    cases ended
    rw [← same, mine, Option.some.injEq, Activity.initialization.injEq] at mine'
    obtain ⟨-, parts⟩ :=
      List.append_inj' (split.symm.trans same) (congrArg Nat.succ mine'.2)
    obtain ⟨started, rfl⟩ := List.cons.inj parts
    cases started
    cases asked.symm.trans asked'
    exact inserted

theorem Inserting.of_no_success {events : List Event}
    (none : ∀ filled, .initializerEnded name (.ok filled) ∉ events) : Inserting name events := by
  rintro since filled during initializer before table rfl
  exact absurd (by simp) (none filled)

theorem Inserting.tail (inserting : Inserting name (event :: past)) : Inserting name past := by
  intro since filled during initializer before table split
  exact inserting (event :: since) filled during initializer before table (congrArg _ split)

/-- None of the later events is the failure of an initialisation that was handed the symbol. -/
def Spared (name key : String) (later past : List Event) : Prop :=
  ∀ since fault during began, later = since ++ .initializerEnded name (.error fault) :: during →
    (underWay (during ++ past)).head? = some (.initialization name began) →
    ¬ Handed name key began (during ++ past)

theorem Spared.of_no_failure (none : ∀ fault, .initializerEnded name (.error fault) ∉ later) :
    Spared name key later past := by
  rintro since fault during began rfl
  exact absurd (by simp) (none fault)

theorem Spared.tail (spared : Spared name key (event :: later) past) :
    Spared name key later past := by
  intro since fault during began split
  exact spared (event :: since) fault during began (congrArg _ split)

/-- A symbol keeps to its places while initialisers insert and none that was handed it fails. -/
theorem Held.append (held : Held name key past) (lawful : Lawful c (later ++ past))
    (inserting : Inserting name (later ++ past)) (spared : Spared name key later past) :
    Held name key (later ++ past) := by
  induction later with
  | nil => exact held
  | cons event rest ih =>
    refine (ih lawful.tail inserting.tail spared.tail).cons lawful.head ?_
    rintro outcome began rfl head handed
    cases outcome with
    | error fault => exact absurd handed (spared [] fault rest began rfl head)
    | ok filled =>
      obtain ⟨during, initializer, before, table, split, rfl, asked, bound⟩ :=
        handed.table lawful.tail
      have split' : Event.initializerEnded name (.ok filled) :: rest ++ past =
          [] ++ .initializerEnded name (.ok filled) ::
            (during ++ .initializerStarted name initializer :: before) :=
        congrArg (Event.initializerEnded name (.ok filled) :: ·) split
      rw [split] at head
      have kept := inserting [] filled during initializer before table split' head asked
      exact ⟨filled, rfl, kept bound⟩

/-! ### The initialisers of the interpreter -/

/-- Whenever the action gives a value, the value has the property. -/
def Action.Gives {α : Type} (P : α → Prop) (action : Action α) : Prop :=
  ∀ m a m', action.on m = (.ok a, m') → P a

namespace Action.Gives

variable {α β : Type} {P : α → Prop} {Q : β → Prop}

theorem any (action : Action α) : action.Gives fun _ => True := fun _ _ _ _ => trivial

theorem pure {a : α} (has : P a) : (Pure.pure a : Action α).Gives P := by
  rintro m b m' done
  cases done
  exact has

theorem bind {action : Action α} {next : α → Action β} (first : action.Gives P)
    (second : ∀ a, P a → (next a).Gives Q) : (action >>= next).Gives Q := by
  intro m b m' done
  rw [Run.on_bind] at done
  cases run : action.on m with
  | mk result between =>
    rw [run] at done
    cases result with
    | ok a => exact second a (first m a between run) between b m' done
    | error failure => cases done

/-- Whatever comes before, the last step decides. -/
theorem after {action : Action α} {next : α → Action β} (last : ∀ a, (next a).Gives Q) :
    (action >>= next).Gives Q := (any action).bind fun a _ => last a

theorem foldlM {items : List β} {step : α → β → Action α}
    (each : ∀ a, P a → ∀ item, (step a item).Gives P) {start : α} (has : P start) :
    (items.foldlM step start).Gives P := by
  induction items generalizing start with
  | nil => exact pure has
  | cons item rest ih =>
    rw [List.foldlM_cons]
    exact (each start has item).bind fun a has' => ih has'

end Action.Gives

/-- The second table binds all names that the first one binds. -/
def Table.Within (table filled : Table) : Prop := table.keys ⊆ filled.keys

namespace Packages

variable {table filled : Table}

theorem within_set (within : table.Within filled) (name : String) (value : Value) :
    table.Within (filled.set name value) :=
  fun _ bound => (OrderedIndex.mem_keys_set ..).2 (.inr (within bound))

theorem gives_bindClass (within : table.Within filled) (cls : Ref .cls) (functionName : String) :
    (bindClass filled cls functionName).Gives table.Within :=
  .after fun _ => .after fun _ => .pure (within_set (within_set within _ _) _ _)

theorem gives_bindNative (within : table.Within filled) (name : String) (action : NativeAction) :
    (bindNative filled name action).Gives table.Within :=
  .after fun _ => .pure (within_set within _ _)

theorem gives_bindNatives (within : table.Within filled)
    (functions : List (String × NativeAction)) :
    (bindNatives filled functions).Gives table.Within :=
  .foldlM (fun _ within _ => gives_bindNative within _ _) within

theorem gives_fill (package : BuiltinPackage) (table : Table) :
    (fill package table).Gives table.Within := by
  have self : table.Within table := fun _ bound => bound
  cases package with
  | collections =>
    refine .after fun mapClass => .after fun setClass => .after fun stackClass => ?_
    refine .after fun dequeClass => .after fun queueClass => ?_
    refine (gives_bindClass self _ _).bind fun _ withMap => ?_
    refine (gives_bindClass withMap _ _).bind fun _ withSet => ?_
    refine (gives_bindClass withSet _ _).bind fun _ withStack => ?_
    refine (gives_bindClass withStack _ _).bind fun _ withDeque => ?_
    refine (gives_bindClass withDeque _ _).bind fun _ withQueue => ?_
    exact gives_bindNative withQueue _ _
  | events =>
    refine .after fun busClass => (gives_bindClass self _ _).bind fun _ withBus => ?_
    exact gives_bindNative withBus _ _
  | signals | array => exact gives_bindNatives self _

theorem within_addMissing (within : table.Within filled) (bindings : List (String × Value)) :
    table.Within (addMissing filled bindings) := by
  induction bindings generalizing filled with
  | nil => exact within
  | cons binding rest ih =>
    rw [addMissing, List.foldl_cons]
    split
    · exact ih within
    · exact ih (within_set within _ _)

theorem gives_fillPrelude (re : Reentry) (table : Table) :
    (fillPrelude re table).Gives table.Within :=
  .foldlM (fun _ within _ => .after fun _ => .pure (within_addMissing within _))
    fun _ bound => bound

end Packages

/-- Whatever functions that they call do, initialisers only insert bindings. -/
theorem Interpreter.gives_runInitializer (re : Reentry) (initializer : Initializer)
    (table : Table) : (runInitializer re initializer table).Gives table.Within := by
  have self : table.Within table := fun _ bound => bound
  cases initializer with
  | builtin package => exact Packages.gives_fill package table
  | prelude => exact Packages.gives_fillPrelude re table
  | body scope body =>
    refine .after fun child => .after fun bindings => .after fun _ => .after fun v => ?_
    cases v with
    | object r =>
      intro m filled m' done
      cases done
      exact fun _ bound => (OrderedIndex.mem_keys_insertAll ..).2 (.inl bound)
    | _ => exact .pure self

/-! ### Symbols over a run -/

/-- What a request gives that succeeds: names that the package had, and those registered while its
initialiser ran. -/
theorem Interpreter.within_ensure {content : Package}
    (found : m.registry.package? name = some content) {steps : Nat} {holds : List Hold}
    {table : Table} {m' : Machine}
    (done : (ensure (steps + 1) holds name).on m = (.ok table, m')) :
    content.bindings.Within table := by
  rw [ensure] at done
  cases asked : m.registry.request name with
  | mk request registry =>
    have request_eq := congrArg Prod.fst asked
    cases request with
    | refused fault =>
      rw [Packages.on_ensure_of_refused request_eq] at done
      cases done
    | ready bindings =>
      rw [Packages.on_ensure_of_ready request_eq] at done
      cases done
      cases found.symm.trans (Registry.request_eq_ready_iff.1 request_eq)
      exact fun _ bound => bound
    | start initializer bindings =>
      cases found.symm.trans (Registry.request_eq_start_iff.1 request_eq)
      rw [Packages.on_ensure_of_start asked] at done
      match run : (runInitializer ⟨holds, invoke steps, ensure steps⟩ initializer bindings).on
          (m.starting name initializer registry) with
      | (.ok filled, after) =>
        rw [Packages.on_finish_of_ok run] at done
        cases done
        have inserted := gives_runInitializer _ initializer bindings _ _ _ run
        exact fun _ bound => (OrderedIndex.mem_keys_insertAll ..).2 (.inl (inserted bound))
      | (.error (.fault fault), after) =>
        rw [Packages.on_finish_of_fault run] at done
        cases done
      | (.error .exhausted, after) =>
        rw [Packages.on_finish_of_exhausted run] at done
        cases done

/-- A symbol that was registered for a package is bound by it, or an initialisation under way was
handed it, while initialisers insert and none that was handed the symbol fails. So it is in the
table of a package that is not being initialised: an initialiser that starts now is handed it, and a
request that succeeds gives it. -/
theorem symbol_kept (moment : Moment c m) {value : Value} (inserting : Inserting name m.journal)
    (split : m.journal = later ++ .symbolRegistered name key value :: past)
    (spared : Spared name key later (.symbolRegistered name key value :: past)) :
    Held name key m.journal ∧
    ((∀ since, .initialization name since ∉ underWay m.journal) →
      (∃ content, m.registry.package? name = some content ∧ key ∈ content.bindings.keys) ∧
      (∀ initializer table, (m.registry.request name).1 = .start initializer table →
        key ∈ table.keys) ∧
      ∀ steps holds table m', (Interpreter.ensure (steps + 1) holds name).on m = (.ok table, m') →
        key ∈ table.keys) := by
  have orderly := moment.orderly
  have registered : Held name key (.symbolRegistered name key value :: past) :=
    .inl (Registry.binds_registerSymbol_self _ name key value)
  have held : Held name key m.journal := by
    have lawful := orderly.lawful
    rw [split] at inserting lawful ⊢
    exact registered.append lawful inserting spared
  refine ⟨held, fun idle => ?_⟩
  have binds : m.registry.Binds name key := by
    rw [orderly.registry]
    exact held.resolve_right fun ⟨since, inside, _⟩ => idle since inside
  obtain ⟨content, found, bound⟩ := binds
  refine ⟨⟨content, found, bound⟩, fun initializer table asked => ?_, ?_⟩
  · cases found.symm.trans (Registry.request_eq_start_iff.1 asked)
    exact bound
  · intro steps holds table m' done
    exact Interpreter.within_ensure found done bound

/-- What is left of the symbols of a package when its initialiser fails: those registered while it
ran. -/
theorem symbols_after_failure (moment : Moment c m) {initializer : Initializer} {fault : Fault}
    {during before : List Event}
    (split : m.journal = .initializerEnded name (.error fault) ::
      (during ++ .initializerStarted name initializer :: before))
    (mine : (underWay (during ++ .initializerStarted name initializer :: before)).head? =
      some (.initialization name before.length))
    (kept : Unregistered name during) :
    ∃ table, m.registry.package? name = some ⟨table, .failed fault⟩ ∧
      table.toList = Entries.putAll [] (symbols name during) := by
  have orderly := moment.orderly
  have lawful := split ▸ orderly.lawful
  have running := List.mem_of_mem_head? (Option.mem_def.2 mine)
  obtain ⟨table, found, entries⟩ := package?_running lawful.tail kept running
  refine ⟨table, ?_, entries⟩
  rw [orderly.registry, split]
  exact package?_ended found (.error fault)

/-! ### A failing initialiser -/

/-- An initialiser with nothing to do. -/
def nothing : Initializer := .body ⟨0⟩ []

/-- An initialiser that fails. -/
def failing : Initializer := .body ⟨0⟩ [.apply (.fail (.invalidOperation "late")) []]

/-- Registers a symbol for the package. -/
def withSymbol (m : Machine) : Machine := ((Packages.registerSymbol "p" "x" .null).on m).2

theorem moment_withSymbol (moment : Moment c m) : Moment c (withSymbol m) :=
  .change moment (.registerSymbol m "p" "x" .null)

/-- The machine after an initialiser failed, a symbol was registered, an initialiser that does
nothing succeeded and was registered again. -/
def symbolLater : Machine :=
  withInitializer nothing (requested (withInitializer nothing (withSymbol
    (requested (withInitializer failing (Interpreter.blank {}))))))

/-- The later initialisers are handed the symbol. -/
theorem symbol_kept_later :
    Moment {} symbolLater ∧ Inserting "p" symbolLater.journal ∧
      ∃ table m', (Interpreter.ensure 1 [] "p").on symbolLater = (.ok table, m') ∧
        "x" ∈ table.keys := by
  have failed : Moment {} (requested (withInitializer failing (Interpreter.blank {}))) :=
    moment_requested (moment_withInitializer .blank failing) (by decide +kernel)
  have moment : Moment {} symbolLater :=
    moment_withInitializer (moment_requested (moment_withInitializer (moment_withSymbol failed)
      nothing) (by decide +kernel)) nothing
  let filled : Table := OrderedIndex.empty.set "x" .null
  let before : List Event := [.packageRegistered "p" nothing, .symbolRegistered "p" "x" .null,
    .initializerEnded "p" (.error { cause := .invalidOperation "late" }),
    .initializerStarted "p" failing, .packageRegistered "p" failing]
  have journal : symbolLater.journal = .packageRegistered "p" nothing ::
      .initializerEnded "p" (.ok filled) :: .initializerStarted "p" nothing :: before := rfl
  have inserting : Inserting "p" symbolLater.journal := by
    have earlier : Inserting "p" (.initializerStarted "p" nothing :: before) :=
      .of_no_success (by simp [before])
    have split : Event.initializerStarted "p" nothing :: before =
        [] ++ .initializerStarted "p" nothing :: before := rfl
    have ended : Inserting "p" (.initializerEnded "p" (.ok filled) ::
        .initializerStarted "p" nothing :: before) :=
      earlier.ended split rfl rfl (List.Subset.refl filled.keys)
    rw [journal]
    exact ended.cons (by simp)
  have spared : Spared "p" "x" [.packageRegistered "p" nothing,
      .initializerEnded "p" (.ok filled), .initializerStarted "p" nothing,
      .packageRegistered "p" nothing] (.symbolRegistered "p" "x" .null ::
        [.initializerEnded "p" (.error { cause := .invalidOperation "late" }),
          .initializerStarted "p" failing, .packageRegistered "p" failing]) :=
    .of_no_failure (by simp)
  obtain ⟨-, idle⟩ := symbol_kept moment inserting journal spared
  obtain ⟨-, -, gives⟩ := idle fun _ => List.not_mem_nil
  exact ⟨moment, inserting, _, _, rfl, gives 0 [] _ _ rfl⟩

/-- The machine after a symbol was registered, an initialiser failed that was handed it, and another
initialiser was registered. -/
def symbolEarlier : Machine :=
  withInitializer nothing (requested (withInitializer failing (withSymbol (Interpreter.blank {}))))

/-- A symbol need not outlive the failure of an initialiser that was handed it: the initialiser that
is registered next gives a table without the symbol. -/
theorem symbol_lost :
    ¬ ∀ c m, Moment c m → ∀ name, Inserting name m.journal →
      (∀ since, .initialization name since ∉ underWay m.journal) →
      ∀ later key value past, m.journal = later ++ .symbolRegistered name key value :: past →
        (∀ initializer table, (m.registry.request name).1 = .start initializer table →
          key ∈ table.keys) ∧
        ∀ steps holds table m',
          (Interpreter.ensure (steps + 1) holds name).on m = (.ok table, m') →
          key ∈ table.keys := by
  intro kept
  have moment : Moment {} symbolEarlier :=
    moment_withInitializer (moment_requested (moment_withInitializer (moment_withSymbol .blank)
      failing) (by decide +kernel)) nothing
  have split : symbolEarlier.journal =
      [.packageRegistered "p" nothing,
        .initializerEnded "p" (.error { cause := .invalidOperation "late" }),
        .initializerStarted "p" failing, .packageRegistered "p" failing] ++
      .symbolRegistered "p" "x" .null :: [] := rfl
  have inserting : Inserting "p" symbolEarlier.journal := .of_no_success (by simp [split])
  obtain ⟨-, gives⟩ := kept {} symbolEarlier moment "p" inserting (fun _ => List.not_mem_nil) _
    "x" .null [] split
  have bound := gives 0 [] _ _ rfl
  exact absurd bound (by decide +kernel)

end ScriptCore
