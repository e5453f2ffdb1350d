import Mathlib.Data.Prod.Basic
import ScriptCore.Proofs.Conduct.Symbols

/-!
What it means that a package is reported as still being initialised.

A request for the package itself is refused with this fault only while an initialisation of it is
under way. But the fault can come up in the initialiser of another package, which fails with it if
it does not handle it; and a package keeps the fault that its initialiser failed with. So whoever is
told that a package is being initialised either requested that package while it was, or requested
one whose own initialiser has failed with this fault.
-/

namespace ScriptCore

variable {c : Config} {m m' : Machine} {name : String} {table : Table} {past : List Event}

/-! ### Packages of a new registry -/

/-- Every package of the registry is still to be started. -/
def Registry.Untouched (registry : Registry) : Prop :=
  ∀ name content, registry.package? name = some content →
    ∃ initializer, content.state = .unstarted initializer

namespace Registry

theorem Untouched.register {registry : Registry} (untouched : registry.Untouched) (name : String)
    (initializer : Initializer) : (registry.register name initializer).Untouched := by
  intro other content found
  by_cases same : other = name
  · subst same
    cases (package?_setPackage_self ..).symm.trans found
    exact ⟨initializer, rfl⟩
  · exact untouched other content ((package?_setPackage_of_ne same _).symm.trans found)

theorem untouched_builtin : builtin.Untouched := by
  have empty : ({} : Registry).Untouched := by rintro _ _ ⟨⟩
  have filled := BuiltinPackage.all.foldlRecOn
    (fun (registry : Registry) package => registry.register package.name (.builtin package)) empty
    fun registry untouched package _ => Untouched.register untouched package.name (.builtin package)
  exact filled.register preludeName .prelude

end Registry

/-! ### What the states of a package tell -/

/-- An initialisation of a package that counts as initialising is under way. -/
theorem underWay_of_initializing (lawful : Lawful c past)
    (found : (Registry.after past).package? name = some ⟨table, .initializing⟩) :
    ∃ since, .initialization name since ∈ underWay past := by
  induction lawful generalizing table with
  | nil =>
    obtain ⟨initializer, state⟩ := Registry.untouched_builtin name _ found
    cases state
  | @cons event past before fits delivers ih =>
    by_cases touched : event.Touches name
    · cases event with
      | packageRegistered other initializer =>
        obtain rfl : other = name := touched
        cases (Registry.package?_setPackage_self ..).symm.trans found
      | initializerStarted other initializer =>
        obtain rfl : other = name := touched
        exact ⟨past.length, List.mem_cons_self⟩
      | initializerEnded other outcome =>
        obtain rfl : other = name := touched
        cases outcome <;> cases (Registry.package?_setPackage_self ..).symm.trans found
      | _ => exact touched.elim
    · obtain ⟨table', found'⟩ := package?_before touched found (by rintro ⟨⟩)
      obtain ⟨since, inside⟩ := ih found'
      refine ⟨since, ?_⟩
      -- What ends here belongs to something else, so the initialisation goes on.
      cases event with
      | left callee depth => exact mem_tail_underWay inside fits.2 (by rintro ⟨⟩)
      | dispatchEnded => exact mem_tail_underWay inside fits (by rintro ⟨⟩)
      | initializerEnded other outcome =>
        obtain ⟨began, head⟩ := fits
        refine mem_tail_underWay inside head fun equal => touched ?_
        cases equal
        rfl
      | entered | dispatchBegan | initializerStarted => exact List.mem_cons_of_mem _ inside
      | _ => exact inside

/-- The last event that touched the package is the failure of its initialiser with the fault. -/
def FailedLast (name : String) (fault : Fault) (events : List Event) : Prop :=
  ∃ since earlier, events = since ++ .initializerEnded name (.error fault) :: earlier ∧
    Quiet name since

/-- A package keeps the fault that its initialiser failed with. -/
theorem failedLast_of_failed {fault : Fault} (lawful : Lawful c past)
    (found : (Registry.after past).package? name = some ⟨table, .failed fault⟩) :
    FailedLast name fault past := by
  induction lawful generalizing table with
  | nil =>
    obtain ⟨initializer, state⟩ := Registry.untouched_builtin name _ found
    cases state
  | @cons event past before fits delivers ih =>
    by_cases touched : event.Touches name
    · cases event with
      | packageRegistered other initializer =>
        obtain rfl : other = name := touched
        cases (Registry.package?_setPackage_self ..).symm.trans found
      | initializerStarted other initializer =>
        obtain rfl : other = name := touched
        cases (package?_started fits).symm.trans found
      | initializerEnded other outcome =>
        obtain rfl : other = name := touched
        cases outcome <;> cases (Registry.package?_setPackage_self ..).symm.trans found
        exact ⟨[], past, rfl, .nil other⟩
      | _ => exact touched.elim
    · obtain ⟨table', found'⟩ := package?_before touched found (by rintro ⟨⟩)
      obtain ⟨since, earlier, rfl, quiet⟩ := ih found'
      exact ⟨event :: since, earlier, rfl, quiet.cons touched⟩

/-! ### Requests that fail -/

/-- The machine keeps the fault for the package: its initialiser failed with it, and every request
has it. -/
def Machine.Keeps (m : Machine) (name : String) (fault : Fault) : Prop :=
  FailedLast name fault m.journal ∧ m.Answers name (.error fault)

theorem keeps_of_failed (moment : Moment c m) {fault : Fault}
    (found : m.registry.package? name = some ⟨table, .failed fault⟩) : m.Keeps name fault := by
  have orderly := moment.orderly
  exact ⟨failedLast_of_failed orderly.lawful (orderly.registry ▸ found),
    answers_of_refused (Registry.request_of_failed found)⟩

theorem keeps_finishing (m : Machine) (name : String) (fault : Fault) :
    (m.finishing name (.error fault)).Keeps name fault :=
  ⟨⟨[], m.journal, rfl, .nil name⟩, answers_of_refused
    (Registry.request_of_failed (Registry.package?_setPackage_self ..))⟩

/-- A request that is refused: the package is unknown, it is being initialised, or it keeps the
fault. -/
theorem refused_cases (moment : Moment c m) {fault : Fault}
    (refused : (m.registry.request name).1 = .refused fault) :
    fault = { cause := .packageNotFound name } ∨
    (fault = { cause := .packageInitializing name } ∧
      ∃ since, .initialization name since ∈ underWay m.journal) ∨
    m.Keeps name fault := by
  rw [Registry.request] at refused
  cases found : m.registry.package? name with
  | none =>
    rw [found] at refused
    cases refused
    exact .inl rfl
  | some package =>
    obtain ⟨bindings, state⟩ := package
    rw [found] at refused
    cases state with
    | initializing =>
      cases refused
      have orderly := moment.orderly
      exact .inr (.inl ⟨rfl, underWay_of_initializing orderly.lawful (orderly.registry ▸ found)⟩)
    | failed fault =>
      cases refused
      exact .inr (.inr (keeps_of_failed moment found))
    | unstarted | ready => cases refused

/-- A request that fails: it is refused and changes nothing, or the package keeps the fault from
now on. -/
theorem Interpreter.ensure_failed {steps : Nat} {holds : List Hold} {fault : Fault}
    (failed : (ensure steps holds name).on m = (.error (.fault fault), m')) :
    (m' = m ∧ (m.registry.request name).1 = .refused fault) ∨ m'.Keeps name fault := by
  cases steps with
  | zero => cases failed
  | succ steps =>
    have outcome := ensure_outcome steps holds name m
    rw [failed] at outcome
    cases outcome with
    | refused refused => exact .inl ⟨rfl, refused⟩
    | failed => exact .inr (keeps_finishing ..)

/-- When a request fails because a package is being initialised, then either it is a request for
that package and an initialisation of it is under way, or the initialiser of the requested package
has failed with this very fault, in the request or before, and the package keeps it. In particular,
if the reported package is ready then requests for it have its bindings, and the fault is one that
the requested package keeps. -/
theorem initializing_reported (moment : Moment c m) {steps : Nat} {holds : List Hold}
    {fault : Fault} {reported : String}
    (failed : (Interpreter.ensure steps holds name).on m = (.error (.fault fault), m'))
    (cause : fault.cause = .packageInitializing reported) :
    (name = reported ∧ m' = m ∧ (∃ since, .initialization reported since ∈ underWay m.journal) ∨
      m'.Keeps name fault) ∧
    ∀ table, m.registry.package? reported = some ⟨table, .ready⟩ →
      m.Answers reported (.ok table) ∧ m'.Keeps name fault := by
  have split : name = reported ∧ m' = m ∧
      (∃ since, .initialization reported since ∈ underWay m.journal) ∨ m'.Keeps name fault := by
    obtain ⟨same, refused⟩ | kept := Interpreter.ensure_failed failed
    · obtain unknown | ⟨initializing, running⟩ | kept := refused_cases moment refused
      · rw [unknown] at cause
        cases cause
      · rw [initializing] at cause
        cases cause
        exact .inl ⟨rfl, same, running⟩
      · exact .inr (same ▸ kept)
    · exact .inr kept
  refine ⟨split, fun table ready => ?_⟩
  have answers := answers_of_ready (Registry.request_of_ready ready)
  refine ⟨answers, split.resolve_left ?_⟩
  -- A request for a package that is ready does not fail.
  rintro ⟨rfl, -, -⟩
  cases steps with
  | zero => cases failed
  | succ steps => cases (answers steps holds).1.symm.trans failed

/-- A request that succeeds leaves its package ready. -/
theorem Interpreter.ready_of_ensure {steps : Nat} {holds : List Hold}
    (done : (ensure steps holds name).on m = (.ok table, m')) :
    m'.registry.package? name = some ⟨table, .ready⟩ := by
  cases steps with
  | zero => cases done
  | succ steps =>
    have outcome := ensure_outcome steps holds name m
    rw [done] at outcome
    cases outcome with
    | ready filled => exact Registry.request_eq_ready_iff.1 filled
    | filled => exact Registry.package?_setPackage_self ..

/-! ### Packages that request each other -/

/-- An initialiser that requests a package. -/
def requesting (other : String) : Initializer := .body ⟨0⟩ [.apply (.importPackage other) []]

/-- An initialiser that does without a package if a request for it fails. -/
def tolerating (other : String) : Initializer :=
  .body ⟨0⟩ [.attempt (.apply (.importPackage other) []), .literal .null]

/-- The machine before two packages are initialised, one of which does without the other. -/
def circular : Machine :=
  let m := ((Packages.register "q" (requesting "p")).on (Interpreter.blank {})).2
  ((Packages.register "p" (tolerating "q")).on m).2

/-- The machine after the tolerant package was requested. -/
def tolerated : Machine := ((Interpreter.ensure 3 [] "p").on circular).2

/-- The fault that the other package keeps. -/
def refusal : Fault := { cause := .packageInitializing "p" }

theorem ensure_circular :
    (Interpreter.ensure 3 [] "p").on circular = (.ok .empty, tolerated) := by
  rw [tolerated]
  exact Prod.fst_eq_iff.1 (by decide +kernel)

theorem moment_tolerated : Moment {} tolerated := by
  have registered : Moment {} circular :=
    .change (.change .blank (.registerPackage _ "q" (requesting "p")))
      (.registerPackage _ "p" (tolerating "q"))
  apply Interpreter.moment_ensure registered
  rw [ensure_circular]
  rintro ⟨⟩

theorem ensure_tolerated : (Interpreter.ensure 1 [] "q").on tolerated =
    (.error (.fault refusal), ((Interpreter.ensure 1 [] "q").on tolerated).2) :=
  Prod.fst_eq_iff.1 (by decide +kernel)

/-- The first package is ready, and the other one keeps that it is being initialised. -/
theorem initializing_reported_tolerated :
    Moment {} tolerated ∧ (∃ table, tolerated.Answers "p" (.ok table)) ∧
      ((Interpreter.ensure 1 [] "q").on tolerated).2.Keeps "q" refusal := by
  obtain ⟨-, ready⟩ := initializing_reported moment_tolerated ensure_tolerated rfl
  obtain ⟨answers, kept⟩ := ready .empty (Interpreter.ready_of_ensure ensure_circular)
  exact ⟨moment_tolerated, ⟨_, answers⟩, kept⟩

/-- A package can be reported as still being initialised when none of its initialisations is under
way, and when it is ready. -/
theorem initializing_outdated :
    (¬ ∀ c m, Moment c m → ∀ steps holds name fault m' reported,
      (Interpreter.ensure steps holds name).on m = (.error (.fault fault), m') →
      fault.cause = .packageInitializing reported →
      ∃ since, .initialization reported since ∈ underWay m'.journal) ∧
    ¬ ∀ c m, Moment c m → ∀ steps holds name fault m' reported,
      (Interpreter.ensure steps holds name).on m = (.error (.fault fault), m') →
      (∃ table, m.registry.package? reported = some ⟨table, .ready⟩) →
      fault.cause ≠ .packageInitializing reported := by
  constructor
  · intro running
    obtain ⟨since, inside⟩ := running {} tolerated moment_tolerated 1 [] "q" refusal _ "p"
      ensure_tolerated rfl
    have idle : underWay ((Interpreter.ensure 1 [] "q").on tolerated).2.journal = [] := by
      decide +kernel
    rw [idle] at inside
    cases inside
  · intro always
    exact always {} tolerated moment_tolerated 1 [] "q" refusal _ "p" ensure_tolerated
      ⟨.empty, Interpreter.ready_of_ensure ensure_circular⟩ rfl

end ScriptCore
