import ScriptCore.Proofs.Conduct.Symbols
import ScriptCore.Proofs.Prelude.Merge

/-!
What the built-in packages export to the prelude.

The initialiser of the prelude requests the built-in packages one after another and merges what they
give. A built-in package that is ready, or that has its own initialiser still to run, gives its
bindings whenever it is requested: its initialiser cannot fail, and it makes functions and classes
and nothing else.
-/

namespace ScriptCore

/-! ### Requests one after another -/

/-- Packages are requested one after another, each of them while a table is held that grows by what
they export, and all of them give their bindings. -/
inductive Gathers (re : Reentry) :
    Table → List BuiltinPackage → Machine → List Table → Machine → Prop where
  | done (table : Table) (m : Machine) : Gathers re table [] m [] m
  | next {table exported : Table} {package : BuiltinPackage} {rest : List BuiltinPackage}
    {exports : List Table} {m m' m'' : Machine}
    (given : ((re.holding table.values).ensure package.name).on m = (.ok exported, m'))
    (others : Gathers re (Packages.addMissing table exported.toList) rest m' exports m'') :
    Gathers re table (package :: rest) m (exported :: exports) m''

/-- What is gathered is merged. -/
theorem Gathers.on_merge {re : Reentry} {table : Table} {packages : List BuiltinPackage}
    {exports : List Table} {m m' : Machine} (gathers : Gathers re table packages m exports m') :
    (packages.foldlM (fun (table : Table) package => do
        let bindings ← (re.holding table.values).ensure package.name
        pure (Packages.addMissing table bindings.toList) : Table → BuiltinPackage → Action Table)
      table).on m = (.ok (Packages.mergeExports table exports), m') := by
  induction gathers with
  | done => rfl
  | next given _ ih =>
    rw [List.foldlM_cons, Run.on_bind, Run.on_bind_of_ok given]
    exact ih

/-- The initialiser of the prelude. -/
theorem Gathers.on_fillPrelude {re : Reentry} {own : Table} {exports : List Table}
    {m m' : Machine} (gathers : Gathers re own BuiltinPackage.all m exports m') :
    (Packages.fillPrelude re own).on m = (.ok (Packages.mergeExports own exports), m') :=
  gathers.on_merge

/-! ### Making functions and classes -/

/-- The event starts or ends an initialisation. -/
def Event.OfInitialization : Event → Prop
  | initializerStarted _ _ => True
  | initializerEnded _ _ => True
  | _ => False

/-- The second machine has other functions, classes and packages, and its journal tells of further
initialisations. -/
def Machine.OnlyDefines (m m' : Machine) : Prop :=
  ∃ functions classes registry, ∃ told : List Event, (∀ event ∈ told, event.OfInitialization) ∧
    m' = { m with
      heap := { m.heap with functions, classes }
      registry
      journal := told ++ m.journal }

namespace Machine.OnlyDefines

variable {m m' m'' : Machine}

theorem refl (m : Machine) : m.OnlyDefines m := ⟨_, _, _, [], nofun, rfl⟩

theorem trans (first : m.OnlyDefines m') (second : m'.OnlyDefines m'') : m.OnlyDefines m'' := by
  obtain ⟨_, _, _, told, initializes, rfl⟩ := first
  obtain ⟨_, _, _, more, initializes', rfl⟩ := second
  refine ⟨_, _, _, more ++ told, ?_, by rw [List.append_assoc]⟩
  intro event member
  rcases List.mem_append.1 member with later | earlier
  · exact initializes' event later
  · exact initializes event earlier

theorem starting (m : Machine) (name : String) (initializer : Initializer) (registry : Registry) :
    m.OnlyDefines (m.starting name initializer registry) :=
  ⟨_, _, _, [.initializerStarted name initializer], List.forall_mem_singleton.2 trivial, rfl⟩

theorem finishing (m : Machine) (name : String) (table : Table) :
    m.OnlyDefines (m.finishing name (.ok table)) :=
  ⟨_, _, _, [.initializerEnded name (.ok table)], List.forall_mem_singleton.2 trivial, rfl⟩

theorem scopes (defines : m.OnlyDefines m') : m'.heap.scopes = m.heap.scopes := by
  obtain ⟨_, _, _, _, -, rfl⟩ := defines
  rfl

/-- Nothing is registered meanwhile. -/
theorem unregistered (defines : m.OnlyDefines m') (name : String) :
    ∃ later, m'.journal = later ++ m.journal ∧ Unregistered name later ∧
      symbols name later = [] := by
  obtain ⟨_, _, _, told, initializes, rfl⟩ := defines
  refine ⟨told, rfl, fun initializer member => initializes _ member, ?_⟩
  induction told with
  | nil => rfl
  | cons event rest ih =>
    obtain ⟨here, others⟩ := List.forall_mem_cons.1 initializes
    cases event with
    | initializerStarted | initializerEnded => exact ih others
    | _ => exact here.elim

end Machine.OnlyDefines

/-- The action gives a value and makes functions and classes, and no package is concerned. -/
def Action.Makes {α : Type} (action : Action α) : Prop :=
  ∀ m, ∃ a m', action.on m = (.ok a, m') ∧ m.OnlyDefines m' ∧ m'.registry = m.registry

namespace Action.Makes

variable {α β : Type}

theorem pure (a : α) : (Pure.pure a : Action α).Makes := fun m => ⟨a, m, rfl, .refl m, rfl⟩

theorem bind {action : Action α} {next : α → Action β} (first : action.Makes)
    (second : ∀ a, (next a).Makes) : (action >>= next).Makes := by
  intro m
  obtain ⟨a, between, done, defines, same⟩ := first m
  obtain ⟨b, m', done', defines', same'⟩ := second a between
  exact ⟨b, m', (Run.on_bind_of_ok done next).trans done', defines.trans defines',
    same'.trans same⟩

theorem foldlM {items : List β} {step : α → β → Action α} (each : ∀ a item, (step a item).Makes)
    (start : α) : (items.foldlM step start).Makes := by
  induction items generalizing start with
  | nil => exact .pure start
  | cons item rest ih =>
    rw [List.foldlM_cons]
    exact .bind (each start item) ih

theorem forM {items : List β} {step : β → Action PUnit} (each : ∀ item, (step item).Makes) :
    (items.forM step).Makes := by
  induction items with
  | nil => exact .pure PUnit.unit
  | cons item rest ih => exact .bind (each item) fun _ => ih

theorem newNative (name : String) (action : NativeAction) : (Action.newNative name action).Makes :=
  fun _ => ⟨_, _, rfl, ⟨_, _, _, [], nofun, rfl⟩, rfl⟩

theorem setMethod (cls : Ref .cls) (name : String) (method : Ref .function) :
    (Action.modifyHeap fun h => h.setMethod cls name method).Makes :=
  fun _ => ⟨_, _, rfl, ⟨_, _, _, [], nofun, rfl⟩, rfl⟩

theorem method (cls : Ref .cls) (label name : String) (action : NativeAction) :
    (do
      let f ← Action.newNative label action
      Action.modifyHeap fun h => h.setMethod cls name f : Action Unit).Makes :=
  .bind (newNative label action) fun f => setMethod cls name f

theorem newClass (name : String) (methods : List (String × NativeAction)) :
    (Native.newClass name methods).Makes := by
  have allocates : (Action.onHeap fun h => h.newClass { name, native := true }).Makes :=
    fun _ => ⟨_, _, rfl, ⟨_, _, _, [], nofun, rfl⟩, rfl⟩
  refine .bind allocates fun cls => .bind (.forM fun item => ?_) fun _ => .pure cls
  exact method cls _ item.1 item.2

theorem newSetClass : newSetClass.Makes := by
  refine .bind (newClass _ _) fun cls => .bind (.forM fun operation => ?_) fun _ => .pure cls
  exact method cls operation.label operation.name _

theorem bindNative (table : Table) (name : String) (action : NativeAction) :
    (Packages.bindNative table name action).Makes :=
  .bind (newNative name action) fun _ => .pure _

theorem bindClass (table : Table) (cls : Ref .cls) (functionName : String) :
    (Packages.bindClass table cls functionName).Makes := by
  have reads : (Action.readHeap fun h => h.className cls).Makes := by
    intro m
    exact ⟨_, m, rfl, .refl m, rfl⟩
  exact .bind reads fun className => .bind (newNative _ _) fun _ => .pure _

/-- The initialisers of the built-in packages succeed, whatever their tables hold already. -/
theorem fill (package : BuiltinPackage) (table : Table) : (Packages.fill package table).Makes := by
  cases package with
  | collections =>
    refine .bind (newClass _ _) fun mapClass => .bind newSetClass fun setClass => ?_
    refine .bind (newClass _ _) fun stackClass => .bind (newClass _ _) fun dequeClass => ?_
    refine .bind (newClass _ _) fun queueClass => .bind (bindClass _ _ _) fun withMap => ?_
    refine .bind (bindClass _ _ _) fun withSet => .bind (bindClass _ _ _) fun withStack => ?_
    refine .bind (bindClass _ _ _) fun withDeque => .bind (bindClass _ _ _) fun withQueue => ?_
    exact bindNative _ _ _
  | events =>
    refine .bind (newClass _ _) fun busClass => .bind (bindClass _ _ _) fun withBus => ?_
    exact bindNative _ _ _
  | signals | array => exact .foldlM (fun table function => bindNative table _ _) table

end Action.Makes

/-! ### Requests for built-in packages -/

/-- The package is ready, or its own initialiser is still to run. -/
def Registry.HasBuiltin (registry : Registry) (package : BuiltinPackage) : Prop :=
  ∃ table state, registry.package? package.name = some ⟨table, state⟩ ∧
    (state = .ready ∨ state = .unstarted (.builtin package))

/-- The first request for a package gives what its initialiser makes of it, if nothing was
registered into the package meanwhile. -/
theorem on_ensure_of_silent {m after : Machine} {name : String} {initializer : Initializer}
    {bindings filled gathered : Table} {steps : Nat} {holds : List Hold}
    (unrequested : m.registry.package? name = some ⟨bindings, .unstarted initializer⟩)
    (came : (Interpreter.runInitializer (Interpreter.nested steps holds) initializer bindings).on
      (m.starting name initializer (m.registry.request name).2) = (.ok filled, after))
    (initializing : after.registry.package? name = some ⟨gathered, .initializing⟩)
    (silent : gathered.toList = []) :
    (Interpreter.ensure (steps + 1) holds name).on m =
        (.ok filled, after.finishing name (.ok filled)) ∧
      (after.finishing name (.ok filled)).registry =
        after.registry.setPackage name ⟨filled, .ready⟩ := by
  have completed : after.registry.complete name filled =
      (filled, after.registry.setPackage name ⟨filled, .ready⟩) := by
    rw [Registry.complete, initializing, Option.getD_some, silent]
    rfl
  have asked : m.registry.request name =
      (.start initializer bindings, (m.registry.request name).2) :=
    Prod.ext (Registry.request_eq_start_iff.2 unrequested) rfl
  constructor
  · have given := (Packages.on_ensure_of_start asked).trans (Packages.on_finish_of_ok came)
    rw [completed] at given
    exact given
  · rw [Machine.finishing, completed]

/-- What a request for a built-in package comes to: it gives the bindings that the package has from
then on, all names among them that it had, and no other package is concerned. -/
theorem on_ensure_builtin {m : Machine} {package : BuiltinPackage}
    (has : m.registry.HasBuiltin package) (steps : Nat) (holds : List Hold) :
    ∃ exported m', (Interpreter.ensure (steps + 1) holds package.name).on m = (.ok exported, m') ∧
      m'.registry.package? package.name = some ⟨exported, .ready⟩ ∧
      (∀ other, other ≠ package.name → m'.registry.package? other = m.registry.package? other) ∧
      m.OnlyDefines m' := by
  obtain ⟨table, state, found, rfl | rfl⟩ := has
  · exact ⟨table, m, Packages.on_ensure_of_ready (Registry.request_of_ready found), found,
      fun _ _ => rfl, .refl m⟩
  · have started := Registry.snd_request_of_unstarted found
    obtain ⟨filled, after, done, defines, same⟩ := Action.Makes.fill package table
      (m.starting package.name (.builtin package) (m.registry.request package.name).2)
    have initializing : after.registry.package? package.name = some ⟨.empty, .initializing⟩ := by
      rw [same, Machine.starting, started]
      exact Registry.package?_setPackage_self ..
    obtain ⟨given, ready⟩ := on_ensure_of_silent found done initializing rfl
    refine ⟨filled, _, given, ?_, fun other apart => ?_, ?_⟩
    · rw [ready]
      exact Registry.package?_setPackage_self ..
    · rw [ready]
      refine (Registry.package?_setPackage_of_ne apart _).trans ?_
      rw [same]
      exact Registry.package?_request_of_ne apart
    · exact ((Machine.OnlyDefines.starting m _ _ _).trans defines).trans (.finishing _ _ _)

/-- The package binds from then on what it exports, all names among them that it had before. -/
def Exports (m m' : Machine) (package : BuiltinPackage) (exported : Table) : Prop :=
  m'.registry.package? package.name = some ⟨exported, .ready⟩ ∧
    ∀ content, m.registry.package? package.name = some content → content.bindings.Within exported

/-- Built-in packages that are ready or have their own initialisers still to run export their
bindings one after another; no other package is concerned, and only functions and classes are
made. -/
theorem gathers_builtin {packages : List BuiltinPackage}
    (distinct : (packages.map BuiltinPackage.name).Nodup) {m : Machine}
    (has : ∀ package ∈ packages, m.registry.HasBuiltin package) (steps : Nat) (holds : List Hold)
    (table : Table) :
    ∃ exports m', Gathers (Interpreter.nested (steps + 1) holds) table packages m exports m' ∧
      List.Forall₂ (Exports m m') packages exports ∧
      (∀ other, other ∉ packages.map BuiltinPackage.name →
        m'.registry.package? other = m.registry.package? other) ∧
      m.OnlyDefines m' := by
  induction packages generalizing m table with
  | nil => exact ⟨[], m, .done table m, .nil, fun _ _ => rfl, .refl m⟩
  | cons package rest ih =>
    obtain ⟨new, distinct⟩ := List.nodup_cons.1 distinct
    have here := has package List.mem_cons_self
    obtain ⟨exported, between, given, ready, kept, defines⟩ :=
      on_ensure_builtin here steps (.values table.values :: holds)
    have still : ∀ other ∈ rest, between.registry.package? other.name =
        m.registry.package? other.name := by
      intro other member
      apply kept
      intro same
      exact new (same ▸ List.mem_map_of_mem member)
    have has' : ∀ other ∈ rest, between.registry.HasBuiltin other := by
      intro other member
      obtain ⟨table, state, found, possible⟩ := has other (List.mem_cons_of_mem _ member)
      exact ⟨table, state, (still other member).trans found, possible⟩
    obtain ⟨exports, m', gathers, bound, kept', defines'⟩ :=
      ih distinct has' (Packages.addMissing table exported.toList)
    have first : Exports m m' package exported := by
      constructor
      · exact (kept' _ new).trans ready
      · intro content found
        exact Interpreter.within_ensure found given
    have others : List.Forall₂ (Exports m m') rest exports := by
      have both := (List.forall₂_and_left rest exports).2 ⟨still, bound⟩
      refine both.imp fun other exported both => ?_
      obtain ⟨same, ready, within⟩ := both
      exact ⟨ready, fun content found => within content (same.trans found)⟩
    refine ⟨exported :: exports, m', .next given gathers, .cons first others, ?_,
      defines.trans defines'⟩
    intro other apart
    obtain ⟨apart, apart'⟩ := not_or.1 (mt List.mem_cons.2 apart)
    exact (kept' other apart').trans (kept other apart)

end ScriptCore
