import ScriptCore.Proofs.Conduct.Symbols

/-!
When the replacement of an initialiser takes effect.

A package that was registered waits for a request, which starts the initialiser. Two events end the
wait: the start, and the end of an older initialisation of the package that was running when the
package was registered. The older one leaves the package ready or failed, so that the new
initialiser is forgotten. The argument looks at the first event after the registration that touches
the package.
-/

namespace ScriptCore

variable {c : Config} {m : Machine} {name : String} {initializer : Initializer}
  {past later : List Event}

/-! ### The first event that touches a package -/

/-- Events leave a package alone, or one of them is the first to touch it. -/
theorem quiet_or_touched (name : String) (later : List Event) :
    Quiet name later ∨ ∃ since event during,
      later = since ++ event :: during ∧ event.Touches name ∧ Quiet name during := by
  induction later with
  | nil => exact .inl (.nil name)
  | cons event rest ih =>
    obtain quiet | ⟨since, first, during, rfl, touches, quiet⟩ := ih
    · by_cases touches : event.Touches name
      · exact .inr ⟨[], event, rest, rfl, touches, quiet⟩
      · exact .inl (quiet.cons touches)
    · exact .inr ⟨event :: since, first, during, rfl, touches, quiet⟩

/-- An initialisation that is under way after events that leave its package alone began before
them. -/
theorem underWay_of_quiet {began : Nat} (quiet : Quiet name later)
    (inside : .initialization name began ∈ underWay (later ++ past)) :
    .initialization name began ∈ underWay past := by
  induction later with
  | nil => exact inside
  | cons event rest ih =>
    refine ih quiet.tail ?_
    rw [List.cons_append] at inside
    cases event with
    | initializerStarted other initializer =>
      rw [underWay, List.mem_cons, Activity.initialization.injEq] at inside
      obtain ⟨rfl, -⟩ | before := inside
      · exact absurd rfl quiet.head
      · exact before
    | entered | dispatchBegan =>
      rw [underWay, List.mem_cons] at inside
      exact inside.resolve_left (by rintro ⟨⟩)
    | left | dispatchEnded | initializerEnded => exact List.mem_of_mem_tail inside
    | _ => exact inside

/-! ### After a registration -/

/-- After the registration an initialisation of the package ended before one started. -/
def Overtaken (name : String) (later : List Event) : Prop :=
  ∃ since outcome during, later = since ++ .initializerEnded name outcome :: during ∧
    Quiet name during

/-- At the machine a request for the package starts the initialiser. -/
def Machine.Starts (m : Machine) (name : String) (initializer : Initializer) : Prop :=
  ∃ table registry, m.registry.request name = (.start initializer table, registry) ∧
    ∀ steps holds, (Interpreter.ensure (steps + 1) holds name).on m =
      (Packages.finish name
        (Interpreter.runInitializer (Interpreter.nested steps holds) initializer table)).on
        (m.starting name initializer registry)

theorem starts_of_unstarted {table : Table}
    (found : m.registry.package? name = some ⟨table, .unstarted initializer⟩) :
    m.Starts name initializer := by
  have asked : m.registry.request name = (.start initializer table, (m.registry.request name).2) :=
    Prod.ext (Registry.request_eq_start_iff.2 found) rfl
  exact ⟨table, _, asked, fun steps holds => Packages.on_ensure_of_start asked⟩

theorem not_starts_of_begun (begun : m.registry.Begun name) : ¬ m.Starts name initializer := by
  rintro ⟨table, registry, asked, -⟩
  exact begun table initializer (Registry.request_eq_start_iff.1 (congrArg Prod.fst asked))

/-- While nothing touches a package that was registered, it is one to be started. -/
theorem package?_waiting (initializer : Initializer) (past : List Event)
    (quiet : Quiet name later) :
    ∃ table, (Registry.after (later ++ .packageRegistered name initializer :: past)).package? name =
      some ⟨table, .unstarted initializer⟩ := by
  have registered :
      (Registry.after (.packageRegistered name initializer :: past)).package? name =
        some ⟨(((Registry.after past).package? name).getD {}).bindings, .unstarted initializer⟩ :=
    Registry.package?_setPackage_self ..
  obtain ⟨table, found, -⟩ := package?_after_quiet quiet registered
  exact ⟨table, found⟩

section Registered

variable (lawful : Lawful c (later ++ .packageRegistered name initializer :: past))
  (kept : Unregistered name later)

include lawful

/-- What ends first after a registration was running when the package was registered. -/
theorem older_of_overtaken (overtaken : Overtaken name later) :
    ∃ began, .initialization name began ∈ underWay past := by
  obtain ⟨since, outcome, during, rfl, quiet⟩ := overtaken
  rw [List.append_assoc, List.cons_append] at lawful
  obtain ⟨began, inside⟩ := lawful.fits
  have running : .initialization name began ∈
      underWay (.packageRegistered name initializer :: past) :=
    underWay_of_quiet quiet (List.mem_of_mem_head? (Option.mem_def.2 inside))
  exact ⟨began, running⟩

include kept

/-- After the registration the initialiser waits or has been started, unless an older initialisation
of the package ended first. -/
theorem waiting_or_started :
    Quiet name later ∨ .initializerStarted name initializer ∈ later ∨ Overtaken name later := by
  obtain quiet | ⟨since, event, during, rfl, touches, quiet⟩ := quiet_or_touched name later
  · exact .inl quiet
  · cases event with
    | packageRegistered other again =>
      obtain rfl : other = name := touches
      exact absurd (List.mem_append_right _ List.mem_cons_self) (kept again)
    | initializerStarted other started =>
      obtain rfl : other = name := touches
      -- What starts is the initialiser that waits, which is the one registered.
      rw [List.append_assoc, List.cons_append] at lawful
      obtain ⟨table, asked⟩ := lawful.fits
      obtain ⟨table', found⟩ := package?_waiting initializer past quiet
      cases found.symm.trans (Registry.request_eq_start_iff.1 asked)
      exact .inr (.inl (List.mem_append_right _ List.mem_cons_self))
    | initializerEnded other outcome =>
      obtain rfl : other = name := touches
      exact .inr (.inr ⟨since, outcome, during, rfl, quiet⟩)
    | _ => exact touches.elim

/-- Once an older initialisation has ended first, the initialiser neither has been started nor
will be. -/
theorem forgotten_of_overtaken (overtaken : Overtaken name later) :
    (Registry.after (later ++ .packageRegistered name initializer :: past)).Begun name ∧
      .initializerStarted name initializer ∉ later := by
  obtain ⟨since, outcome, during, rfl, quiet⟩ := overtaken
  have keptSince : Unregistered name since := fun again member =>
    kept again (List.mem_append_left _ member)
  rw [List.append_assoc, List.cons_append] at lawful ⊢
  obtain ⟨table, waiting⟩ := package?_waiting initializer past quiet
  have begun := Registry.Begun.of_package? (package?_ended waiting outcome)
    (by cases outcome <;> rintro _ ⟨⟩)
  refine ⟨begun_after begun keptSince, fun member => ?_⟩
  obtain after | ⟨⟨⟩⟩ | before := (List.mem_append.1 member).imp_right List.mem_cons.1
  · -- A start needs a package that is to be started, and none is after the end.
    obtain ⟨since', between, rfl⟩ := List.append_of_mem after
    rw [List.append_assoc, List.cons_append] at lawful
    obtain ⟨table', asked⟩ := lawful.fits
    refine begun_after begun (fun again member => ?_) table' initializer
      (Registry.request_eq_start_iff.1 asked)
    exact keptSince again (List.mem_append_right _ (.tail _ member))
  · exact quiet _ before rfl

end Registered

/-- After a package was registered with an initialiser, and until it is registered again, a request
for it starts the initialiser or one has started it, exactly unless an initialisation of the package
ended before one started. That one was running when the package was registered: without an older
initialisation under way, every registration takes effect. -/
theorem replacement_takes_effect (moment : Moment c m)
    (split : m.journal = later ++ .packageRegistered name initializer :: past)
    (kept : Unregistered name later) :
    (m.Starts name initializer ∨ .initializerStarted name initializer ∈ later ↔
      ¬ Overtaken name later) ∧
    (Overtaken name later → ∃ began, .initialization name began ∈ underWay past) := by
  have orderly := moment.orderly
  have lawful := split ▸ orderly.lawful
  have registry := split ▸ orderly.registry
  refine ⟨⟨fun effect overtaken => ?_, fun first => ?_⟩, older_of_overtaken lawful⟩
  · obtain ⟨begun, unstarted⟩ := forgotten_of_overtaken lawful kept overtaken
    exact effect.elim (not_starts_of_begun (registry ▸ begun)) unstarted
  · obtain quiet | started | overtaken := waiting_or_started lawful kept
    · obtain ⟨table, found⟩ := package?_waiting initializer past quiet
      exact .inl (starts_of_unstarted (registry ▸ found))
    · exact .inr started
    · exact absurd overtaken first

/-! ### Replacing an initialiser that failed, or that runs -/

/-- The machine after an initialiser failed and another one was registered. -/
def replaced : Machine :=
  withInitializer nothing (requested (withInitializer failing (Interpreter.blank {})))

/-- The next request starts the new initialiser. -/
theorem replacement_takes_effect_replaced : Moment {} replaced ∧ replaced.Starts "p" nothing := by
  have moment : Moment {} replaced :=
    moment_withInitializer (moment_requested (moment_withInitializer .blank failing)
      (by decide +kernel)) nothing
  have split : replaced.journal = [] ++ .packageRegistered "p" nothing ::
      [.initializerEnded "p" (.error { cause := .invalidOperation "late" }),
        .initializerStarted "p" failing, .packageRegistered "p" failing] := rfl
  obtain ⟨effect, older⟩ := replacement_takes_effect moment split nofun
  have first : ¬ Overtaken "p" [] := fun overtaken => by
    obtain ⟨began, inside⟩ := older overtaken
    cases inside
  exact ⟨moment, (effect.2 first).resolve_right List.not_mem_nil⟩

/-- An initialiser that registers its package anew. -/
def replacing : Initializer := .body ⟨0⟩ [.package "p" []]

/-- The machine after such an initialiser ran. -/
def overtaken : Machine := requested (withInitializer replacing (Interpreter.blank {}))

/-- An initialiser need not take effect: the end of one that was running when it was registered
takes its place, and no request starts it. -/
theorem replacement_forgotten :
    ¬ ∀ c m, Moment c m → ∀ name initializer later past,
      m.journal = later ++ .packageRegistered name initializer :: past →
      Unregistered name later → (∀ began, .initialization name began ∉ underWay m.journal) →
      m.Starts name initializer ∨ .initializerStarted name initializer ∈ later := by
  intro effect
  have moment : Moment {} overtaken :=
    moment_requested (moment_withInitializer .blank replacing) (by decide +kernel)
  obtain ⟨table, registry, asked, -⟩ | started := effect {} overtaken moment "p" (.body ⟨1⟩ [])
    [.initializerEnded "p" (.ok .empty)]
    [.initializerStarted "p" replacing, .packageRegistered "p" replacing] rfl
    (by simp [Unregistered]) fun _ => List.not_mem_nil
  · cases asked
  · simp at started

end ScriptCore
