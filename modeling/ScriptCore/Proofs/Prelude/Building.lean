import ScriptCore.Proofs.Conduct.Connections
import ScriptCore.Proofs.Prelude.Exports
import ScriptCore.Proofs.Scopes.Writes

/-!
What the prelude binds, and what an interpreter defines that is built with it.

The first request for the prelude gathers what the built-in packages export. If they all give their
bindings and nothing is registered into the prelude meanwhile, it binds the symbols that were
registered for it before and then each other name that a package exports, with the value of the
first package that exports it. An interpreter that is built with the prelude defines these names in
its global scope, over what is there, and no other name.
-/

namespace ScriptCore

open Registry (preludeName)

variable {c : Config} {m m' : Machine} {own : Table} {exports : List Table} {steps : Nat}
  {holds : List Hold}

/-! ### While the prelude is initialised -/

/-- The machine in which the initialisation of the prelude has just started. -/
def Machine.preludeStarted (m : Machine) : Machine :=
  m.starting preludeName .prelude (m.registry.request preludeName).2

/-- Whatever holds across all requests holds across those for the built-in packages. -/
theorem Gathers.related {R : Machine → Machine → Prop} [Abiding R] {re : Reentry}
    [leads : re.Leads R] {table : Table} {packages : List BuiltinPackage}
    (gathers : Gathers re table packages m exports m') : R m m' := by
  induction gathers with
  | done table m => exact Abiding.refl m
  | @next table exported package rest exports m between m' given others ih =>
    have requested := (leads.request (.values table.values :: re.holds) package.name).related m
    have given' : (re.request (.values table.values :: re.holds) package.name).on m =
        (.ok exported, between) := given
    rw [given'] at requested
    exact Abiding.trans (requested nofun) ih

/-- While nothing is registered into the prelude, nothing gathers in its table. -/
theorem prelude_initializing (moment : Moment c m)
    (unrequested : m.registry.package? preludeName = some ⟨own, .unstarted .prelude⟩)
    (gathers : Gathers (Interpreter.nested steps holds) own BuiltinPackage.all m.preludeStarted
      exports m') {later : List Event} (split : m'.journal = later ++ m.preludeStarted.journal)
    (kept : Unregistered preludeName later) (silent : symbols preludeName later = []) :
    ∃ gathered, m'.registry.package? preludeName = some ⟨gathered, .initializing⟩ ∧
      gathered.toList = [] := by
  have started : Moment c m.preludeStarted :=
    .start moment (Prod.ext (Registry.request_eq_start_iff.2 unrequested) rfl)
  have balanced : Balanced c m.preludeStarted m' := gathers.related
  have orderly := (balanced.moment started).orderly
  have inside : .initialization preludeName m.journal.length ∈ underWay m'.journal := by
    rw [balanced.underWay]
    exact List.mem_cons_self
  have lawful := orderly.lawful
  rw [split] at lawful inside
  obtain ⟨gathered, found, entries⟩ := package?_running lawful kept inside
  refine ⟨gathered, ?_, ?_⟩
  · rw [orderly.registry, split]
    exact found
  · rw [entries, silent]
    rfl

/-! ### What the prelude binds -/

/-- Defining a table in a scope defines its names there, and no other name and in no other scope. -/
theorem Heap.lookupLocal_defineTable {h : Heap} {s : Ref .scope} (table : Table)
    (present : s.index < h.scopes.size) (t : Ref .scope) (name : String) :
    (h.defineAll s table.toList).lookupLocal t name =
      if t = s ∧ name ∈ table.keys then table.get? name else h.lookupLocal t name := by
  rw [lookupLocal_defineAll table.keys_nodup present, ← table.get?_eq_lookup]
  by_cases here : s = t
  · by_cases bound : name ∈ table.keys
    · rw [if_pos here, if_pos ⟨here.symm, bound⟩,
        Option.or_of_isSome ((table.isSome_get?_iff name).2 bound)]
    · rw [if_pos here, if_neg fun both => bound both.2, (table.get?_eq_none_iff name).2 bound]
      rfl
  · rw [if_neg here, if_neg fun both => here both.1.symm]

/-- The prelude merges what the built-in packages export, and building with it defines that in the
global scope. -/
structure PreludeMerges (m : Machine) (own : Table) (steps : Nat) (holds : List Hold)
    (exports : List Table) (m' : Machine) (table : Table) (built : Machine) : Prop where
  merges : MergesExports own exports table
  /-- The first request for the prelude gives the table. -/
  given : (Interpreter.ensure (steps + 1) holds preludeName).on m =
    (.ok table, m'.finishing preludeName (.ok table))
  /-- So does every later one. -/
  answers : (m'.finishing preludeName (.ok table)).Answers preludeName (.ok table)
  installs : (Interpreter.installPrelude (Interpreter.nested (steps + 1) holds)).on m =
    (.ok (), built)
  /-- The names of the table are defined in the global scope, no others, and in no other scope. -/
  defines : ∀ s name, built.heap.lookupLocal s name =
    if s = m.globals ∧ name ∈ table.keys then table.get? name else m'.heap.lookupLocal s name
  parents : built.heap.parentScope? = m'.heap.parentScope?
  /-- Nothing but scopes is different then. -/
  rest : built = { m'.finishing preludeName (.ok table) with
    heap := { m'.heap with scopes := built.heap.scopes } }

theorem preludeMerges
    (unrequested : m.registry.package? preludeName = some ⟨own, .unstarted .prelude⟩)
    (gathers : Gathers (Interpreter.nested steps holds) own BuiltinPackage.all m.preludeStarted
      exports m')
    {gathered : Table}
    (initializing : m'.registry.package? preludeName = some ⟨gathered, .initializing⟩)
    (silent : gathered.toList = []) (present : m.globals.index < m.heap.scopes.size) :
    ∃ table built, PreludeMerges m own steps holds exports m' table built := by
  set table := Packages.mergeExports own exports
  obtain ⟨given, registered⟩ :=
    on_ensure_of_silent unrequested gathers.on_fillPrelude initializing silent
  have ready : ((m'.finishing preludeName (.ok table)).registry.request preludeName).1 =
      .ready table := by
    refine Registry.request_of_ready ?_
    rw [registered]
    exact Registry.package?_setPackage_self ..
  have reached : Reaches m.preludeStarted m' := gathers.related
  have globals : m'.globals = m.globals := reached.later.globals
  have present' : m.globals.index < m'.heap.scopes.size :=
    Nat.lt_of_lt_of_le present reached.later.grows.scopes
  refine ⟨table, _, Packages.mergesExports own exports, given, answers_of_ready ready,
    Run.on_bind_of_ok given _, ?_, Heap.parentScope?_defineAll .., ?_⟩
  · intro s name
    rw [← globals] at present' ⊢
    exact Heap.lookupLocal_defineTable table present' s name
  · exact congrArg (fun heap => { m'.finishing preludeName (.ok table) with heap })
      (Heap.rest_defineAll m'.heap m'.globals table.toList)

/-! ### Built-in packages with their own initialisers -/

theorem Heap.lookupLocal_of_scopes {h h' : Heap} (same : h'.scopes = h.scopes) (s : Ref .scope)
    (name : String) : h'.lookupLocal s name = h.lookupLocal s name := by
  rw [lookupLocal, lookupLocal, Heap.scope, Heap.scope, same]

/-- If the built-in packages are ready or have their own initialisers still to run, they all give
their bindings, nothing is registered meanwhile, and no scope is concerned. -/
theorem prelude_gathers_builtin
    (unrequested : m.registry.package? preludeName = some ⟨own, .unstarted .prelude⟩)
    (has : ∀ package, m.registry.HasBuiltin package) (steps : Nat) (holds : List Hold) :
    ∃ exports m', Gathers (Interpreter.nested (steps + 1) holds) own BuiltinPackage.all
        m.preludeStarted exports m' ∧
      List.Forall₂ (Exports m m') BuiltinPackage.all exports ∧
      m'.registry.package? preludeName = some ⟨.empty, .initializing⟩ ∧
      m.preludeStarted.OnlyDefines m' := by
  have distinct : (BuiltinPackage.all.map BuiltinPackage.name).Nodup := by decide
  have apart : preludeName ∉ BuiltinPackage.all.map BuiltinPackage.name := by decide
  have same (package : BuiltinPackage) : m.preludeStarted.registry.package? package.name =
      m.registry.package? package.name := by
    apply Registry.package?_request_of_ne
    intro equal
    apply apart
    rw [← equal]
    cases package <;> decide
  have has' : ∀ package ∈ BuiltinPackage.all, m.preludeStarted.registry.HasBuiltin package := by
    intro package _
    obtain ⟨table, state, found, possible⟩ := has package
    exact ⟨table, state, (same package).trans found, possible⟩
  obtain ⟨exports, m', gathers, bound, kept, defines⟩ :=
    gathers_builtin distinct has' steps holds own
  refine ⟨exports, m', gathers, bound.imp ?_, ?_, defines⟩
  · rintro package exported ⟨ready, within⟩
    exact ⟨ready, fun content found => within content ((same package).trans found)⟩
  · rw [kept preludeName apart, Machine.preludeStarted, Machine.starting,
      Registry.snd_request_of_unstarted unrequested]
    exact Registry.package?_setPackage_self ..

/-- The built-in packages give their bindings to the prelude, nothing is registered meanwhile, and
building with the prelude leaves everything else that any scope binds. -/
structure PreludeDefines (m : Machine) (own : Table) (steps : Nat) (holds : List Hold)
    (exports : List Table) (m' : Machine) (table : Table) (built : Machine) : Prop extends
    PreludeMerges m own steps holds exports m' table built where
  gathers : Gathers (Interpreter.nested steps holds) own BuiltinPackage.all m.preludeStarted
    exports m'
  exported : List.Forall₂ (Exports m m') BuiltinPackage.all exports
  unregistered : ∃ later, m'.journal = later ++ m.preludeStarted.journal ∧
    Unregistered preludeName later ∧ symbols preludeName later = []
  environment : ∀ s name, built.heap.lookupLocal s name =
    if s = m.globals ∧ name ∈ table.keys then table.get? name else m.heap.lookupLocal s name

theorem preludeDefines
    (unrequested : m.registry.package? preludeName = some ⟨own, .unstarted .prelude⟩)
    (present : m.globals.index < m.heap.scopes.size)
    (has : ∀ package, m.registry.HasBuiltin package) (steps : Nat) (holds : List Hold) :
    ∃ exports m' table built, PreludeDefines m own (steps + 1) holds exports m' table built := by
  obtain ⟨exports, m', gathers, exported, initializing, defines⟩ :=
    prelude_gathers_builtin unrequested has steps holds
  obtain ⟨table, built, merges⟩ := preludeMerges unrequested gathers initializing rfl present
  refine ⟨exports, m', table, built, merges, gathers, exported, defines.unregistered preludeName,
    ?_⟩
  intro s name
  rw [merges.defines, Heap.lookupLocal_of_scopes defines.scopes]
  rfl

/-- No symbol is missing that was registered for a built-in package. -/
theorem PreludeDefines.within {table : Table} {built : Machine}
    (defines : PreludeDefines m own steps holds exports m' table built) (package : BuiltinPackage)
    {content : Package} (found : m.registry.package? package.name = some content) :
    content.bindings.Within table := by
  have listed : package ∈ BuiltinPackage.all := by cases package <;> decide
  obtain ⟨place, rfl⟩ := List.mem_iff_get.1 listed
  obtain ⟨length, each⟩ := List.forall₂_iff_get.1 defines.exported
  have exported := each place place.2 (length ▸ place.2)
  exact List.Subset.trans (exported.2 content found)
    (defines.merges.complete _ (List.get_mem _ _))

/-! ### Whole interpreters -/

namespace Interpreter

/-- Defining the bindings of the global scope changes the heap alone, and no scope goes away. -/
theorem on_defineGlobals (bindings : List (String × Datum)) (m : Machine) :
    ∃ heap, (defineGlobals bindings).on m = (.ok (), { m with heap }) ∧
      m.heap.scopes.size ≤ heap.scopes.size := by
  induction bindings generalizing m with
  | nil => exact ⟨m.heap, rfl, Nat.le_refl _⟩
  | cons binding rest ih =>
    obtain ⟨name, d⟩ := binding
    let defined : Heap := (Heap.build d m.heap).2.define m.globals name (Heap.build d m.heap).1
    obtain ⟨heap, done, more⟩ := ih { m with heap := defined }
    have grows : m.heap.Grows True defined := (Heap.Grows.build d m.heap).trans (.define _ _ _ _)
    exact ⟨heap, done, Nat.le_trans grows.scopes more⟩

theorem hasBuiltin_builtin (package : BuiltinPackage) : Registry.builtin.HasBuiltin package := by
  cases package <;> exact ⟨.empty, _, rfl, .inr rfl⟩

/-- A new interpreter that is built with the prelude has the bindings of one that is built without
it, and over them what the built-in packages export. -/
theorem start_withPrelude (setup : Setup) :
    let bare := (start { setup with withPrelude := false }).2
    ∃ exports m' table built,
      PreludeDefines bare .empty (nestingBound - 1) [] exports m' table built ∧
        start { setup with withPrelude := true } = (.ok (), built) := by
  intro bare
  obtain ⟨heap, done, more⟩ := on_defineGlobals setup.globals (blank setup.config)
  have without : start { setup with withPrelude := false } =
      (.ok (), { blank setup.config with heap }) := Run.on_bind_of_ok done _
  have same : bare = { blank setup.config with heap } := congrArg Prod.snd without
  have unrequested : bare.registry.package? preludeName = some ⟨.empty, .unstarted .prelude⟩ := by
    rw [same]
    rfl
  have present : bare.globals.index < bare.heap.scopes.size := by
    rw [same]
    exact Nat.lt_of_lt_of_le Nat.zero_lt_one more
  have has : ∀ package, bare.registry.HasBuiltin package := by
    rw [same]
    exact hasBuiltin_builtin
  obtain ⟨exports, m', table, built, defines⟩ :=
    preludeDefines unrequested present has (nestingBound - 2) []
  refine ⟨exports, m', table, built, defines, ?_⟩
  have withPrelude : start { setup with withPrelude := true } =
      (installPrelude (reentry nestingBound)).on bare := by
    rw [same]
    exact Run.on_bind_of_ok done _
  exact withPrelude.trans defines.installs

end Interpreter

/-- Where the prelude has not been requested, its first request gives the symbols registered for it
before, and then each other name that a built-in package exports, from the first one that exports
it, if those packages give their bindings and nothing is registered into the prelude meanwhile. This
is so if they are ready or have their own initialisers still to run, and then building with the
prelude defines the names in the global scope and leaves everything else that any scope binds. A new
interpreter that is built with the prelude has the bindings of one that is built without it, and
these names over them. -/
theorem prelude_first_exporter_wins
    (unrequested : m.registry.package? preludeName = some ⟨own, .unstarted .prelude⟩)
    (present : m.globals.index < m.heap.scopes.size) :
    (∀ c, Moment c m → ∀ steps holds exports m' later,
      Gathers (Interpreter.nested steps holds) own BuiltinPackage.all m.preludeStarted exports m' →
      m'.journal = later ++ m.preludeStarted.journal →
      Unregistered preludeName later → symbols preludeName later = [] →
      ∃ table built, PreludeMerges m own steps holds exports m' table built) ∧
    ((∀ package, m.registry.HasBuiltin package) → ∀ steps holds, ∃ exports m' table built,
      PreludeDefines m own (steps + 1) holds exports m' table built) ∧
    ∀ setup : Interpreter.Setup, ∃ exports m' table built,
      PreludeDefines (Interpreter.start { setup with withPrelude := false }).2 .empty
        (Interpreter.nestingBound - 1) [] exports m' table built ∧
      Interpreter.start { setup with withPrelude := true } = (.ok (), built) := by
  refine ⟨?_, ?_, Interpreter.start_withPrelude⟩
  · intro c moment steps holds exports m' later gathers split kept silent
    obtain ⟨gathered, initializing, empty⟩ :=
      prelude_initializing moment unrequested gathers split kept silent
    exact preludeMerges unrequested gathers initializing empty present
  · intro has
    exact preludeDefines unrequested present has

/-- A name that two built-in packages export, registered for the prelude. -/
def ownSymbols : Table := OrderedIndex.empty.set "map" .null

/-- A machine in which symbols were registered for the prelude and for a package that is still to be
initialised. -/
def withOwnSymbols : Machine :=
  ((do
    Packages.registerSymbol "prelude" "map" .null
    Packages.registerSymbol "array" "extra" (.text "mine") : Action Unit).on
      (Interpreter.blank {})).2

/-- The symbol of the prelude stands over what two packages export under its name, and the symbol of
the package is exported as well. -/
theorem prelude_first_exporter_wins_own :
    withOwnSymbols.registry.package? preludeName = some ⟨ownSymbols, .unstarted .prelude⟩ ∧
      Moment {} withOwnSymbols ∧
      ∃ exports m' table built,
        PreludeDefines withOwnSymbols ownSymbols 1 [] exports m' table built ∧
        (∃ table built, PreludeMerges withOwnSymbols ownSymbols 1 [] exports m' table built) ∧
        table.get? "map" = some .null ∧ "extra" ∈ table.keys := by
  have unrequested : withOwnSymbols.registry.package? preludeName =
      some ⟨ownSymbols, .unstarted .prelude⟩ := rfl
  have moment : Moment {} withOwnSymbols :=
    .change (.change .blank (.registerSymbol _ "prelude" "map" .null))
      (.registerSymbol _ "array" "extra" (.text "mine"))
  have present : withOwnSymbols.globals.index < withOwnSymbols.heap.scopes.size := Nat.zero_lt_one
  have has : ∀ package, withOwnSymbols.registry.HasBuiltin package := by
    intro package
    cases package <;> exact ⟨_, _, rfl, .inr rfl⟩
  obtain ⟨general, builtin, -⟩ := prelude_first_exporter_wins unrequested present
  obtain ⟨exports, m', table, built, defines⟩ := builtin has 0 []
  obtain ⟨later, split, kept, silent⟩ := defines.unregistered
  have merges := general {} moment 1 [] exports m' later defines.gathers split kept silent
  refine ⟨unrequested, moment, exports, m', table, built, defines, merges, ?_, ?_⟩
  · have bound : "map" ∈ ownSymbols.keys := (OrderedIndex.mem_keys_set ..).2 (.inl rfl)
    exact (defines.merges.own_values "map" bound).trans rfl
  · have found : withOwnSymbols.registry.package? "array" =
        some ⟨OrderedIndex.empty.set "extra" (.text "mine"), .unstarted (.builtin .array)⟩ := rfl
    have registered : "extra" ∈ (OrderedIndex.empty.set "extra" (.text "mine") : Table).keys :=
      (OrderedIndex.mem_keys_set ..).2 (.inl rfl)
    exact defines.within .array found registered

end ScriptCore
