import ScriptCore.Proofs.Collections.Maps
import ScriptCore.Proofs.Collections.Sets

/-!
Maps and Sets over their whole lives.

Whatever is done to arrays and objects between the calls on a Map or a Set, its entries stay where
they are, under the keys that they were stored with: the instance cannot be told from a list of
rows that takes the calls and hears nothing of what happens in between.
-/

namespace ScriptCore

/-- An instance that is constructed as a Map, or as a Set, answers every run of calls with anything
in between like its list of rows. -/
theorem collections_liveAsRows (re : Reentry) {r : Ref .inst} {m : Machine} (bare : m.heap.Bare r)
    (arg : Option Value) :
    (∀ commands, (MapCommand.collection re r).LivesAsRows arg commands m) ∧
      ∀ commands, (SetCommand.collection re r).LivesAsRows arg commands m :=
  ⟨Collection.livesAsRows (MapCommand.answersAsRows re r)
      (MapCommand.constructsAsRows re bare arg),
    Collection.livesAsRows (SetCommand.answersAsRows re r)
      (SetCommand.constructsAsRows re bare arg)⟩

/-- A machine with a bare instance, an empty array, a pair of that array and true, and an array of
that pair. -/
def paired : Machine := .fresh
  { arrays := ⟨#[#[], #[.array ⟨0⟩, .boolean true], #[.array ⟨1⟩]]⟩
    instances := ⟨#[{ cls := ⟨0⟩ }]⟩ }

/-- Puts null into the empty array. -/
def writtenTo (r : Ref .inst) : Interlude r :=
  .write r (fun arrays => arrays.modify ⟨0⟩ fun _ => #[.null]) id

/-- Constructs a Map from the pair and a Set from its array, and writes to the array that both keep
as a key. -/
theorem collections_liveAsRows_paired :
    paired.heap.Bare ⟨0⟩ ∧
      (MapCommand.collection .idle ⟨0⟩).LivesAsRows (some (.array ⟨2⟩))
        [.get (.array ⟨0⟩), .meanwhile (writtenTo ⟨0⟩), .has (.array ⟨0⟩), .entries] paired ∧
      (SetCommand.collection .idle ⟨0⟩).LivesAsRows (some (.array ⟨1⟩))
        [.meanwhile (writtenTo ⟨0⟩), .add (.array ⟨0⟩), .size, .values] paired := by
  have bare : paired.heap.Bare ⟨0⟩ := rfl
  exact ⟨bare, (collections_liveAsRows .idle bare _).1 _, (collections_liveAsRows .idle bare _).2 _⟩

/-- The array is found under what it held when it was set, and stays listed once it is written to
and no longer found. -/
example :
    ∃ m, ((MapMethod.construct.call .idle (some (.inst ⟨0⟩)) [.array ⟨2⟩]).on paired).2 = m ∧
      (runSteps (MapCommand.onMachine .idle) [.get (.array ⟨0⟩), .meanwhile (writtenTo ⟨0⟩),
        .has (.array ⟨0⟩), .entries] m).1.map (Except.toOption ·) =
      [some (.value (.boolean true)), some .nothing, some (.value (.boolean false)),
        some (.rows [[.array ⟨0⟩, .boolean true]])] := ⟨_, rfl, by decide⟩

end ScriptCore
