import ScriptCore.Proofs.Conduct.History
import ScriptCore.Proofs.Index.View

/-!
What events do to one package.

Whether a package is to be initialised, what its initialisation has come to and what it binds can
be read off the events that touch it: those that register it and those that start or end one of its
initialisations. Other events only add the symbols registered for it.
-/

namespace ScriptCore

/-! ### Looking up packages -/

namespace Registry

variable {registry : Registry} {name other : String} {table : Table} {initializer : Initializer}
  {state : PackageState}

theorem package?_setPackage_self (registry : Registry) (name : String) (package : Package) :
    (registry.setPackage name package).package? name = some package :=
  (OrderedIndex.get?_set _ _ _ _).trans (if_pos rfl)

theorem package?_setPackage_of_ne (apart : other ≠ name) (package : Package) :
    (registry.setPackage name package).package? other = registry.package? other :=
  (OrderedIndex.get?_set _ _ _ _).trans (if_neg apart)

theorem package?_registerSymbol (found : registry.package? name = some ⟨table, state⟩)
    (key : String) (value : Value) :
    (registry.registerSymbol name key value).package? name =
      some ⟨table.set key value, state⟩ := by
  rw [registerSymbol, package?_setPackage_self, found]
  rfl

/-- A request starts an initialiser exactly if it is the one of a package not started. -/
theorem request_eq_start_iff :
    (registry.request name).1 = .start initializer table ↔
      registry.package? name = some ⟨table, .unstarted initializer⟩ := by
  rw [request]
  cases registry.package? name with
  | none => simp
  | some package =>
    obtain ⟨bindings, state⟩ := package
    cases state <;> simp [and_comm]

/-- A request is answered at once exactly if the package is ready. -/
theorem request_eq_ready_iff :
    (registry.request name).1 = .ready table ↔ registry.package? name = some ⟨table, .ready⟩ := by
  rw [request]
  cases registry.package? name with
  | none => simp
  | some package =>
    obtain ⟨bindings, state⟩ := package
    cases state <;> simp

theorem snd_request_of_unstarted
    (found : registry.package? name = some ⟨table, .unstarted initializer⟩) :
    (registry.request name).2 = registry.setPackage name ⟨.empty, .initializing⟩ := by
  rw [request, found]

theorem request_of_initializing (found : registry.package? name = some ⟨table, .initializing⟩) :
    (registry.request name).1 = .refused { cause := .packageInitializing name } := by
  rw [request, found]

theorem request_of_ready (found : registry.package? name = some ⟨table, .ready⟩) :
    (registry.request name).1 = .ready table := request_eq_ready_iff.2 found

theorem request_of_failed {fault : Fault}
    (found : registry.package? name = some ⟨table, .failed fault⟩) :
    (registry.request name).1 = .refused fault := by
  rw [request, found]

/-- After a request its package is not one to be started. -/
theorem package?_request_ne_unstarted :
    (registry.request name).2.package? name ≠ some ⟨table, .unstarted initializer⟩ := by
  rw [request]
  cases found : registry.package? name with
  | none => simp [found]
  | some package =>
    obtain ⟨bindings, state⟩ := package
    cases state with
    | unstarted initializer => simp [package?_setPackage_self]
    | initializing | ready | failed => simp [found]

/-- A request for another package leaves a package as it is. -/
theorem package?_request_of_ne (apart : other ≠ name) :
    (registry.request name).2.package? other = registry.package? other := by
  rw [request]
  cases registry.package? name with
  | none => rfl
  | some package =>
    obtain ⟨bindings, state⟩ := package
    cases state with
    | unstarted initializer => exact package?_setPackage_of_ne apart _
    | initializing | ready | failed => rfl

end Registry

/-! ### Events of a package -/

/-- The event registers the package, or starts or ends one of its initialisations. -/
def Event.Touches (name : String) : Event → Prop
  | packageRegistered other _ => other = name
  | initializerStarted other _ => other = name
  | initializerEnded other _ => other = name
  | _ => False

/-- The events do not touch the package. -/
def Quiet (name : String) (events : List Event) : Prop := ∀ event ∈ events, ¬ event.Touches name

/-- The events do not register the package. -/
def Unregistered (name : String) (events : List Event) : Prop :=
  ∀ initializer, Event.packageRegistered name initializer ∉ events

/-- The symbols that the events register for the package, in the order of their registration. -/
def symbols (name : String) : List Event → List (String × Value)
  | [] => []
  | .symbolRegistered package key value :: past =>
    if package = name then symbols name past ++ [(key, value)] else symbols name past
  | _ :: past => symbols name past

namespace Quiet

variable {name : String} {event : Event} {events : List Event}

theorem nil (name : String) : Quiet name [] := nofun

theorem cons (apart : ¬ event.Touches name) (quiet : Quiet name events) :
    Quiet name (event :: events) := by
  rintro other (_ | ⟨_, member⟩)
  · exact apart
  · exact quiet other member

theorem head (quiet : Quiet name (event :: events)) : ¬ event.Touches name :=
  quiet event List.mem_cons_self

theorem tail (quiet : Quiet name (event :: events)) : Quiet name events :=
  fun other member => quiet other (.tail _ member)

end Quiet

variable {name : String} {table : Table} {state : PackageState} {initializer : Initializer}
  {past later : List Event}

/-- An event that does not touch a package and registers no symbol for it leaves it as it is. -/
theorem package?_after_other {event : Event} (apart : ¬ event.Touches name)
    (silent : symbols name [event] = []) :
    (Registry.after (event :: past)).package? name = (Registry.after past).package? name := by
  cases event with
  | packageRegistered other initializer =>
    exact Registry.package?_setPackage_of_ne (Ne.symm apart) _
  | symbolRegistered package key value =>
    refine Registry.package?_setPackage_of_ne (fun same => ?_) _
    simp [symbols, same] at silent
  | initializerStarted other initializer => exact Registry.package?_request_of_ne (Ne.symm apart)
  | initializerEnded other outcome =>
    cases outcome <;> exact Registry.package?_setPackage_of_ne (Ne.symm apart) _
  | _ => rfl

/-- Events that do not touch a package add the symbols that they register for it, and leave how far
its initialisation has come. -/
theorem package?_after_quiet (quiet : Quiet name later)
    (found : (Registry.after past).package? name = some ⟨table, state⟩) :
    ∃ table', (Registry.after (later ++ past)).package? name = some ⟨table', state⟩ ∧
      table'.toList = Entries.putAll table.toList (symbols name later) := by
  induction later with
  | nil => exact ⟨table, found, rfl⟩
  | cons event rest ih =>
    obtain ⟨table', found', entries⟩ := ih quiet.tail
    cases event with
    | symbolRegistered package key value =>
      by_cases same : package = name
      · subst same
        refine ⟨table'.set key value, Registry.package?_registerSymbol found' key value, ?_⟩
        rw [OrderedIndex.toList_set, entries, symbols, if_pos rfl, Entries.putAll_append]
        rfl
      · refine ⟨table', (package?_after_other quiet.head (if_neg same)).trans found', ?_⟩
        rw [symbols, if_neg same]
        exact entries
    | _ => exact ⟨table', (package?_after_other quiet.head rfl).trans found', entries⟩

/-- An event that does not touch a package leaves how far its initialisation has come, except that a
symbol makes an unknown package one that is ready. -/
theorem package?_before {event : Event} (apart : ¬ event.Touches name)
    (found : (Registry.after (event :: past)).package? name = some ⟨table, state⟩)
    (unready : state ≠ .ready) :
    ∃ table, (Registry.after past).package? name = some ⟨table, state⟩ := by
  cases event with
  | symbolRegistered package key value =>
    by_cases same : package = name
    · subst same
      cases before : (Registry.after past).package? package with
      | none =>
        have here := (Registry.package?_setPackage_self ..).symm.trans found
        rw [before] at here
        cases here
        exact absurd rfl unready
      | some content =>
        obtain ⟨bindings, state⟩ := content
        cases (Registry.package?_registerSymbol before key value).symm.trans found
        exact ⟨_, rfl⟩
    · exact ⟨table, (package?_after_other apart (if_neg same)).symm.trans found⟩
  | _ => exact ⟨table, (package?_after_other apart rfl).symm.trans found⟩

/-! ### Packages to be started -/

/-- If a package is to be started after an event, then the event registered it, or it was to be
started before. -/
theorem unstarted_cons {event : Event}
    (found : (Registry.after (event :: past)).package? name =
      some ⟨table, .unstarted initializer⟩) :
    event = .packageRegistered name initializer ∨ ¬ event.Touches name ∧
      ∃ table, (Registry.after past).package? name = some ⟨table, .unstarted initializer⟩ := by
  by_cases touched : event.Touches name
  · cases event with
    | packageRegistered other initializer' =>
      obtain rfl : other = name := touched
      cases (Registry.package?_setPackage_self ..).symm.trans found
      exact .inl rfl
    | initializerStarted other initializer' =>
      obtain rfl : other = name := touched
      exact absurd found Registry.package?_request_ne_unstarted
    | initializerEnded other outcome =>
      obtain rfl : other = name := touched
      cases outcome <;> cases (Registry.package?_setPackage_self ..).symm.trans found
    | _ => exact touched.elim
  · exact .inr ⟨touched, package?_before touched found (by rintro ⟨⟩)⟩

/-- The last event that touched the package registered it with the initialiser, or none did and it
is a package that comes with every registry. -/
inductive Fresh (name : String) (initializer : Initializer) : List Event → Prop
  | registered (since earlier : List Event) (quiet : Quiet name since) :
    Fresh name initializer (since ++ .packageRegistered name initializer :: earlier)
  | builtin {events : List Event} {table : Table} (quiet : Quiet name events)
      (known : Registry.builtin.package? name = some ⟨table, .unstarted initializer⟩) :
    Fresh name initializer events

theorem fresh_of_unstarted
    (found : (Registry.after past).package? name = some ⟨table, .unstarted initializer⟩) :
    Fresh name initializer past := by
  induction past generalizing table with
  | nil => exact .builtin (.nil name) found
  | cons event rest ih =>
    obtain rfl | ⟨apart, table', before⟩ := unstarted_cons found
    · exact .registered [] rest (.nil name)
    · cases ih before with
      | registered since earlier quiet =>
        exact .registered (event :: since) earlier (quiet.cons apart)
      | builtin quiet known => exact .builtin (quiet.cons apart) known

/-- The package is not one to be started. -/
def Registry.Begun (registry : Registry) (name : String) : Prop :=
  ∀ table initializer, registry.package? name ≠ some ⟨table, .unstarted initializer⟩

theorem Registry.Begun.of_package? {registry : Registry} {content : Package}
    (found : registry.package? name = some content)
    (begun : ∀ initializer, content.state ≠ .unstarted initializer) : registry.Begun name := by
  intro table initializer other
  cases found.symm.trans other
  exact begun initializer rfl

/-- A package is only to be started again if it is registered again. -/
theorem begun_after (begun : (Registry.after past).Begun name) (kept : Unregistered name later) :
    (Registry.after (later ++ past)).Begun name := by
  induction later with
  | nil => exact begun
  | cons event rest ih =>
    intro table initializer found
    obtain rfl | ⟨-, table', before⟩ := unstarted_cons found
    · exact kept initializer List.mem_cons_self
    · exact ih (fun initializer member => kept initializer (.tail _ member)) table' initializer before

end ScriptCore
