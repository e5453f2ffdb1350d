import Mathlib.Data.List.Basic

/-!
Runs of commands, and when one system answers like another.

A system answers a command and goes to its next state. `runSteps` runs commands one after another
and gathers the answers. Two results say when the answers of two systems are equal over every
run: `runSteps_simulates` if they take the same commands, `runSteps_refines` if the second takes
what the first one's commands come to in the state that they meet. What every step keeps, every
run keeps (`runSteps_keeps`). `perm_runSteps` is about a system whose states are lists: what every
step conserves is conserved over every run.
-/

namespace ScriptCore

variable {State Other Command Seen Answer : Type*}

/-- Runs commands one after another and gathers the answers. -/
def runSteps (step : Command → State → Answer × State) :
    List Command → State → List Answer × State
  | [], s => ([], s)
  | command :: rest, s =>
    let (answer, s) := step command s
    let (answers, s) := runSteps step rest s
    (answer :: answers, s)

/-- What the commands of a run come to, each in the state that it meets. -/
def seenAlong (step : Command → State → Answer × State) (view : Command → State → Seen) :
    List Command → State → List Seen
  | [], _ => []
  | command :: rest, s => view command s :: seenAlong step view rest (step command s).2

/-- What the commands of a run come to is what one of them comes to in the state that the commands
before it lead to. -/
theorem mem_seenAlong {step : Command → State → Answer × State} {view : Command → State → Seen}
    {commands : List Command} {s : State} {seen : Seen} :
    seen ∈ seenAlong step view commands s ↔
      ∃ earlier command later, commands = earlier ++ command :: later ∧
        view command (runSteps step earlier s).2 = seen := by
  induction commands generalizing s with
  | nil => simp [seenAlong]
  | cons first rest ih =>
    rw [seenAlong, List.mem_cons, ih]
    constructor
    · rintro (rfl | ⟨earlier, command, later, rfl, same⟩)
      · exact ⟨[], first, rest, rfl, rfl⟩
      · exact ⟨first :: earlier, command, later, rfl, same⟩
    · rintro ⟨_ | ⟨first', earlier⟩, command, later, split, same⟩
      · cases split
        exact .inl same.symm
      · cases split
        exact .inr ⟨earlier, command, later, rfl, same⟩

/-- If related states answer every command as it is seen alike, up to how an answer is told, and
stay related, runs from related states give the same answers and end in related states. -/
theorem runSteps_refines {Told : Type*} {step : Command → State → Told × State}
    {reference : Seen → Other → Answer × Other} (view : Command → State → Seen)
    (tell : Answer → Told) (Related : State → Other → Prop)
    (refines : ∀ command s t, Related s t →
      (step command s).1 = tell (reference (view command s) t).1 ∧
        Related (step command s).2 (reference (view command s) t).2)
    (commands : List Command) {s : State} {t : Other} (related : Related s t) :
    (runSteps step commands s).1 =
        (runSteps reference (seenAlong step view commands s) t).1.map tell ∧
      Related (runSteps step commands s).2
        (runSteps reference (seenAlong step view commands s) t).2 := by
  induction commands generalizing s t with
  | nil => exact ⟨rfl, related⟩
  | cons command rest ih =>
    obtain ⟨same, related'⟩ := refines command s t related
    obtain ⟨sameRest, relatedRest⟩ := ih related'
    exact ⟨congrArg₂ List.cons same sameRest, relatedRest⟩

/-- What commands come to without regard to the state that they meet. -/
theorem seenAlong_eq_map (step : Command → State → Answer × State) (view : Command → Seen)
    (commands : List Command) (s : State) :
    seenAlong step (fun command _ => view command) commands s = commands.map view := by
  induction commands generalizing s with
  | nil => rfl
  | cons command rest ih => rw [seenAlong, ih, List.map_cons]

/-- If related states answer every command alike and stay related, runs from related states give
the same answers and end in related states. -/
theorem runSteps_simulates {step : Command → State → Answer × State}
    {reference : Command → Other → Answer × Other} (Related : State → Other → Prop)
    (simulates : ∀ command s t, Related s t →
      (step command s).1 = (reference command t).1 ∧
        Related (step command s).2 (reference command t).2)
    (commands : List Command) {s : State} {t : Other} (related : Related s t) :
    (runSteps step commands s).1 = (runSteps reference commands t).1 ∧
      Related (runSteps step commands s).2 (runSteps reference commands t).2 := by
  have refined := runSteps_refines (fun command _ => command) id Related simulates commands related
  rwa [seenAlong_eq_map, List.map_id', List.map_id] at refined

/-- What every step keeps, every run keeps. -/
theorem runSteps_keeps {step : Command → State → Answer × State} {Holds : State → Prop}
    (keeps : ∀ command s, Holds s → Holds (step command s).2) (commands : List Command) {s : State}
    (start : Holds s) : Holds (runSteps step commands s).2 := by
  induction commands generalizing s with
  | nil => exact start
  | cons command rest ih => exact ih (keeps command s start)

/-- Over any run nothing is lost and nothing leaves twice, if no step loses or doubles anything:
what came is what is there and what left. -/
theorem perm_runSteps {Item : Type*} [DecidableEq Item]
    {step : Command → List Item → Answer × List Item} {arriving : Command → List Item}
    {leaving : Command → List Item → List Item}
    (conserves : ∀ command items,
      ((step command items).2 ++ leaving command items).Perm (items ++ arriving command))
    (commands : List Command) (items : List Item) :
    ((runSteps step commands items).2 ++ (seenAlong step leaving commands items).flatten).Perm
      (items ++ commands.flatMap arriving) := by
  induction commands generalizing items with
  | nil => simp [runSteps, seenAlong]
  | cons command rest ih =>
    have first := conserves command items
    have others := ih (step command items).2
    refine List.perm_iff_count.2 fun item => ?_
    have now := first.count_eq item
    have later := others.count_eq item
    simp only [runSteps, seenAlong, List.flatten_cons, List.flatMap_cons, List.count_append]
      at now later ⊢
    omega

end ScriptCore
