import ScriptCore.Proofs.Collections.Union
import ScriptCore.Proofs.Conduct.Connections

/-!
What the intersection and the difference of two Sets hold.

Both keep members of the first Set under the keys that these were added with, so what happened to
the members in the meantime makes no difference: a probe is looked for under the same key in all
four Sets. The results are new instances of the class with stores of their own.
-/

namespace ScriptCore

/-! ### The class -/

/-- A class has a method that does the action. -/
def Machine.HasMethod (m : Machine) (info : ClassInfo) (name label : String)
    (action : NativeAction) : Prop :=
  ∃ f, info.methods.get? name = some f ∧ m.heap.functions.get? f = some (.native label action)

/-- Defining a native method leaves the class with it, beside the methods of other names, and adds a
function. -/
structure Machine.Defines (m : Machine) (cls : Ref .cls) (info : ClassInfo) (name label : String)
    (action : NativeAction) (info' : ClassInfo) (m' : Machine) : Prop where
  functions : m.heap.functions.Kept m'.heap.functions
  cls : m'.heap.classes.get? cls = some info'
  method : m'.HasMethod info' name label action
  others : ∀ other, other ≠ name → info'.methods.get? other = info.methods.get? other

theorem Machine.Defines.keeps {m m' : Machine} {cls : Ref .cls} {info info' : ClassInfo}
    {name label other label' : String} {action action' : NativeAction}
    (defines : m.Defines cls info name label action info' m') (apart : other ≠ name)
    (has : m.HasMethod info other label' action') : m'.HasMethod info' other label' action' := by
  obtain ⟨f, named, found⟩ := has
  exact ⟨f, (defines.others other apart).trans named, defines.functions f _ found⟩

namespace Native

variable {m : Machine} {cls : Ref .cls} {info : ClassInfo}

theorem on_define (found : m.heap.classes.get? cls = some info) (name label : String)
    (action : NativeAction) :
    ∃ info' m', (do
        let f ← Action.newNative label action
        Action.modifyHeap fun h => h.setMethod cls name f : Action Unit).on m = (.ok (), m') ∧
      m.Defines cls info name label action info' m' := by
  let f := (m.heap.newFunction (.native label action)).1
  refine ⟨{ info with methods := info.methods.set name f }, _, rfl, ?_, ?_, ⟨f, ?_, ?_⟩, ?_⟩
  · exact m.heap.functions.kept_alloc _
  · refine (Cells.get?_modify _ _ _ _).trans ((if_pos rfl).trans ?_)
    exact congrArg (Option.map _) found
  · exact (info.methods.get?_set name name f).trans (if_pos rfl)
  · exact (Cells.get?_alloc _ _ _).trans (if_pos rfl)
  · intro other apart
    exact (info.methods.get?_set name other f).trans (if_neg apart)

theorem on_defineAll (found : m.heap.classes.get? cls = some info) (name : String)
    (methods : List (String × NativeAction)) :
    ∃ info' m', (methods.forM fun method => do
        let f ← Action.newNative (name ++ "." ++ method.1) method.2
        Action.modifyHeap fun h => h.setMethod cls method.1 f : Action Unit).on m = (.ok (), m') ∧
      m'.heap.classes.get? cls = some info' := by
  induction methods generalizing m info with
  | nil => exact ⟨info, m, rfl, found⟩
  | cons method rest ih =>
    obtain ⟨between, m', done, defines⟩ :=
      on_define found method.1 (name ++ "." ++ method.1) method.2
    obtain ⟨info', m'', done', found'⟩ := ih defines.cls
    exact ⟨info', m'', (Run.on_bind_of_ok done _).trans done', found'⟩

theorem on_newClass (m : Machine) (name : String) (methods : List (String × NativeAction)) :
    ∃ cls info m', (newClass name methods).on m = (.ok cls, m') ∧
      m'.heap.classes.get? cls = some info := by
  let made := m.heap.newClass { name, native := true }
  have found : made.2.classes.get? made.1 = some { name, native := true } :=
    (Cells.get?_alloc _ _ _).trans (if_pos rfl)
  have found : ({ m with heap := made.2 } : Machine).heap.classes.get? made.1 = some _ := found
  obtain ⟨info, m', done, found'⟩ := on_defineAll found name methods
  refine ⟨made.1, info, m', ?_, found'⟩
  exact (Run.on_bind_of_ok (Action.on_onHeap _ m) _).trans (Run.on_bind_of_ok done _)

end Native

/-- The operations that the class Set defines refer to the class itself. -/
theorem on_newSetClass (m : Machine) :
    ∃ cls m', newSetClass.on m = (.ok cls, m') ∧ ∀ operation : SetAlgebra, ∃ f,
      m'.heap.method? cls operation.name = some f ∧
      m'.heap.functions.get? f = some (.native operation.label (.setAlgebra operation cls)) := by
  obtain ⟨cls, info, m₀, made, found⟩ := Native.on_newClass m "Set"
    (SetMethod.table.map fun method => (method.1, .set method.2))
  obtain ⟨info₁, m₁, done₁, union⟩ :=
    Native.on_define found "union" "Set.union" (.setAlgebra .union cls)
  obtain ⟨info₂, m₂, done₂, intersection⟩ :=
    Native.on_define union.cls "intersection" "Set.intersection" (.setAlgebra .intersection cls)
  obtain ⟨info₃, m₃, done₃, difference⟩ :=
    Native.on_define intersection.cls "difference" "Set.difference" (.setAlgebra .difference cls)
  have defined : (SetAlgebra.all.forM fun operation => do
      let f ← Action.newNative operation.label (.setAlgebra operation cls)
      Action.modifyHeap fun h => h.setMethod cls operation.name f : Action Unit).on m₀ =
        (.ok (), m₃) :=
    (Run.on_bind_of_ok done₁ _).trans ((Run.on_bind_of_ok done₂ _).trans
      (Run.on_bind_of_ok done₃ _))
  have methods : ∀ operation : SetAlgebra, m₃.HasMethod info₃ operation.name operation.label
      (.setAlgebra operation cls) := by
    intro operation
    cases operation with
    | union => exact difference.keeps (by decide) (intersection.keeps (by decide) union.method)
    | intersection => exact difference.keeps (by decide) intersection.method
    | difference => exact difference.method
  refine ⟨cls, m₃, (Run.on_bind_of_ok made _).trans (Run.on_bind_of_ok defined _), ?_⟩
  intro operation
  obtain ⟨f, named, native⟩ := methods operation
  refine ⟨f, ?_, native⟩
  rw [Heap.method?, Heap.classInfo, difference.cls]
  exact named

/-! ### The laws -/

/-- What calls on two Sets, the first of which has a store, and on two others tell at a machine: the
third has what the first two have, and the fourth what the first has and the second does not; their
sizes add up to that of the first; and they list, in new arrays, the members of the first that the
second has, and those that it does not have, in the order of the first. -/
structure SelectionLaw (r₁ r₂ i d : Ref .inst) (a b : SetStore) (n : Machine) : Prop where
  has : ∀ re v, ∃ mine theirs : Bool,
    (SetMethod.has.call re (some (.inst r₁)) [v]).on n = (.ok (.boolean mine), n) ∧
    (SetMethod.has.call re (some (.inst r₂)) [v]).on n = (.ok (.boolean theirs), n) ∧
    (SetMethod.has.call re (some (.inst i)) [v]).on n = (.ok (.boolean (mine && theirs)), n) ∧
    (SetMethod.has.call re (some (.inst d)) [v]).on n = (.ok (.boolean (mine && !theirs)), n)
  size : ∀ re, ∃ common rest : Nat,
    (SetMethod.size.call re (some (.inst i)) []).on n = (.ok (.ofNat common), n) ∧
    (SetMethod.size.call re (some (.inst d)) []).on n = (.ok (.ofNat rest), n) ∧
    (SetMethod.size.call re (some (.inst r₁)) []).on n = (.ok (.ofNat (common + rest)), n)
  values : ∀ re,
    (SetMethod.values.call re (some (.inst r₁)) []).MakesArray (a.rows.map Prod.snd) n ∧
    (SetMethod.values.call re (some (.inst i)) []).MakesArray
      ((a.rows.filter fun row => b.contains row.1).map Prod.snd) n ∧
    (SetMethod.values.call re (some (.inst d)) []).MakesArray
      ((a.rows.filter fun row => !b.contains row.1).map Prod.snd) n

theorem selectionLaw_of_owns {r₁ r₂ i d : Ref .inst} {a b : SetStore} {n : Machine}
    (first : n.heap.Owns r₁ (.set a)) (second : n.heap.Owns r₂ (.set b))
    (common : n.heap.Owns i (.set (a.intersection b)))
    (rest : n.heap.Owns d (.set (a.difference b))) : SelectionLaw r₁ r₂ i d a b n where
  has re v := by
    refine ⟨_, _, SetMethod.on_has re first v, SetMethod.on_has re second v, ?_, ?_⟩
    · rw [SetMethod.on_has re common, SetStore.contains_intersection]
    · rw [SetMethod.on_has re rest, SetStore.contains_difference]
  size re := by
    refine ⟨_, _, SetMethod.on_size re common, SetMethod.on_size re rest, ?_⟩
    rw [SetMethod.on_size re first, ← SetStore.size_split]
  values re := by
    have listed : ∀ {r : Ref .inst} {store : SetStore}, n.heap.Owns r (.set store) →
        (SetMethod.values.call re (some (.inst r)) []).MakesArray (store.rows.map Prod.snd) n :=
      fun owns => Action.makesArray_of_newArray (SetMethod.on_values re owns)
    refine ⟨listed first, ?_, ?_⟩
    · rw [← SetStore.rows_intersection]
      exact listed common
    · rw [← SetStore.rows_difference]
      exact listed rest

namespace SetAlgebra

/-! ### Operands -/

section Operands

variable (re : Reentry) (operation : SetAlgebra) {cls : Ref .cls} {m n : Machine}

/-- What is not an instance of exactly the class is refused before anything is done. -/
theorem refuses_other {arg : Value} (other : ∀ r, arg = .inst r → (m.heap.inst r).cls ≠ cls)
    (this : Option Value) :
    ∃ cause : Cause, (operation.call re cls this [arg]).on m = (.error (.fault { cause }), m) ∧
      cause.category = .type ∧
      (re.keeps m cls.identity → ∃ got, cause = .typeMismatch operation.label "Set" got) := by
  have refused : ∃ got, operand m.heap operation.label cls arg =
      .error (.typeMismatch operation.label "Set" got) := by
    cases arg with
    | inst r => exact ⟨_, if_neg (other r rfl)⟩
    | _ => exact ⟨_, rfl⟩
  obtain ⟨got, refused⟩ := refused
  refine ⟨refusal re m cls (.typeMismatch operation.label "Set" got), ?_, ?_, fun used => ?_⟩
  · simp only [call, Arguments.exactly, List.length_singleton, if_true, List.getD_cons_zero,
      refused, Except.mapError, Run.on_bind, Action.on_check_ok, Action.on_get,
      Action.on_check_error]
  · unfold refusal
    split <;> rfl
  · exact ⟨got, if_pos used⟩

/-- An instance of the class with a Set store is an operand at every later machine. -/
theorem accepts_later {r s : Ref .inst} {store mine : SetStore}
    (made : m.heap.instances.get? r = some { cls, resource := some (.set store) })
    (later : Later m n) (owns : n.heap.Owns s (.set mine)) :
    ∃ theirs u n', n.heap.Owns r (.set theirs) ∧
      (operation.call re cls (some (.inst s)) [.inst r]).on n = (.ok (.inst u), n') ∧
      n'.heap.Owns u (.set (operation.combine n.heap.keyOf mine theirs)) := by
  have owned : m.heap.Owns r (.set store) := Option.map_eq_some_iff.2 ⟨_, made, rfl⟩
  obtain ⟨now, owns', kind⟩ := later.grows.owns owned
  obtain ⟨content, found, lasts⟩ := later.grows.instances r _ made
  have sameClass : (n.heap.inst r).cls = cls := by
    rw [Heap.inst, found]
    exact lasts.cls
  cases now with
  | set theirs =>
    refine ⟨theirs, _, _, owns', on_call re operation owns owns' sameClass, ?_⟩
    rw [Heap.Owns, Heap.owner, Heap.get?_newOwner]
    rfl
  | _ => cases kind

end Operands

/-! ### Two selections -/

section Selecting

variable (re : Reentry) {cls : Ref .cls} {m : Machine} {r₁ r₂ : Ref .inst} {a b : SetStore}
  (owns₁ : m.heap.Owns r₁ (.set a)) (owns₂ : m.heap.Owns r₂ (.set b))
  (sameClass : (m.heap.inst r₂).cls = cls)

include owns₁ owns₂ sameClass

/-- An operation adds an instance, and leaves everything that was there before. -/
theorem on_call_new (operation : SetAlgebra) :
    ∃ r m', (operation.call re cls (some (.inst r₁)) [.inst r₂]).on m = (.ok (.inst r), m') ∧
      m.heap.instances.get? r = none ∧
      m'.heap.instances.get? r =
        some { cls, resource := some (.set (operation.combine m.heap.keyOf a b)) } ∧
      m.Frame none m' :=
  ⟨_, _, on_call re operation owns₁ owns₂ sameClass, m.heap.get?_nextInstance,
    m.heap.get?_newOwner cls _, .of_heap (.newOwner none m.heap cls _)⟩

/-- The intersection and the difference of two Sets are new instances of the class, and everything
that was there before is as it was. At every machine at which the four Sets have their stores, what
calls tell of them obeys the laws, whatever happened to the members. An operation on one instance
changes no other instance's store. Both results are operands at every later machine. The class is
the one that the operations were defined for, and what is not an instance of exactly this class is
refused, whatever it owns. -/
theorem selection_laws :
    ∃ (i d : Ref .inst) (m' n : Machine),
      (intersection.call re cls (some (.inst r₁)) [.inst r₂]).on m = (.ok (.inst i), m') ∧
      (difference.call re cls (some (.inst r₁)) [.inst r₂]).on m' = (.ok (.inst d), n) ∧
      m.heap.instances.get? i = none ∧ m.heap.instances.get? d = none ∧ i ≠ d ∧
      n.heap.instances.get? i = some { cls, resource := some (.set (a.intersection b)) } ∧
      n.heap.instances.get? d = some { cls, resource := some (.set (a.difference b)) } ∧
      m.Frame none n ∧
      SelectionLaw r₁ r₂ i d a b n ∧
      (∀ n', n'.heap.Owns r₁ (.set a) → n'.heap.Owns r₂ (.set b) →
        n'.heap.Owns i (.set (a.intersection b)) → n'.heap.Owns d (.set (a.difference b)) →
        SelectionLaw r₁ r₂ i d a b n') ∧
      (∀ (n' : Machine) (re : Reentry) (action : NativeAction) scope args, action.isStoreOperation →
        ∀ s resource, n'.heap.owner s = some resource →
          action.subject (n'.heap.lookupLocal scope receiverName) args ≠ some s →
          ((Interpreter.performNative re action scope args).on n').2.heap.owner s =
            some resource) ∧
      (∀ n', Later n n' → ∀ t ∈ [i, d], ∀ (re : Reentry) (operation : SetAlgebra) s mine,
        n'.heap.Owns s (.set mine) → ∃ theirs u n'', n'.heap.Owns t (.set theirs) ∧
          (operation.call re cls (some (.inst s)) [.inst t]).on n' = (.ok (.inst u), n'') ∧
          n''.heap.Owns u (.set (operation.combine n'.heap.keyOf mine theirs))) ∧
      (∀ n', ∃ set n'', newSetClass.on n' = (.ok set, n'') ∧ ∀ operation : SetAlgebra, ∃ f,
        n''.heap.method? set operation.name = some f ∧
        n''.heap.functions.get? f = some (.native operation.label (.setAlgebra operation set))) ∧
      ∀ (n' : Machine) (re : Reentry) (operation : SetAlgebra) this arg,
        (∀ r, arg = .inst r → (n'.heap.inst r).cls ≠ cls) →
        ∃ cause : Cause,
          (operation.call re cls this [arg]).on n' = (.error (.fault { cause }), n') ∧
          cause.category = .type ∧
          (re.keeps n' cls.identity →
            ∃ got, cause = .typeMismatch operation.label "Set" got) := by
  have untouched : ∀ r : Ref .inst, none ≠ some r := fun r => (Option.some_ne_none r).symm
  obtain ⟨i, m', common, unused, made, frame⟩ :=
    on_call_new re owns₁ owns₂ sameClass intersection
  have sameClass' : (m'.heap.inst r₂).cls = cls := by
    obtain ⟨content, found, -⟩ := Option.map_eq_some_iff.1 owns₂
    rw [Heap.inst, found] at sameClass
    rw [Heap.inst, frame.heap.get?_eq found (untouched _)]
    exact sameClass
  obtain ⟨d, n, rest, unused', made', frame'⟩ :=
    on_call_new re (frame.heap.owner_eq owns₁ (untouched _))
      (frame.heap.owner_eq owns₂ (untouched _)) sameClass' difference
  have kept := frame'.heap.get?_eq made (untouched _)
  have whole := frame.trans frame'
  have unusedBefore : m.heap.instances.get? d = none := by
    cases found : m.heap.instances.get? d with
    | none => rfl
    | some content => cases unused'.symm.trans (frame.heap.get?_eq found (untouched _))
  have apart : i ≠ d := by
    rintro rfl
    cases unused'.symm.trans made
  have law := selectionLaw_of_owns (whole.heap.owner_eq owns₁ (untouched _))
    (whole.heap.owner_eq owns₂ (untouched _)) (Option.map_eq_some_iff.2 ⟨_, kept, rfl⟩)
    (Option.map_eq_some_iff.2 ⟨_, made', rfl⟩)
  refine ⟨i, d, m', n, common, rest, unused, unusedBefore, apart, kept, made', whole, law, ?_, ?_,
    ?_, on_newSetClass, ?_⟩
  · intro n' owns₁' owns₂' ownsI ownsD
    exact selectionLaw_of_owns owns₁' owns₂' ownsI ownsD
  · intro n' re action scope args silent s resource owner other
    exact (Interpreter.atomicAt_performNative re scope args n' silent).owner_eq owner other
  · intro n' later t member re operation s mine owns
    rcases List.mem_pair.1 member with rfl | rfl
    · exact accepts_later re operation kept later owns
    · exact accepts_later re operation made' later owns
  · intro n' re operation this arg other
    exact refuses_other re operation other this

end Selecting

/-- The Sets of null and true and of true and false have true in common, and the first has null
beside it. -/
theorem selection_laws_overlapping :
    overlapping.heap.Owns ⟨0⟩ (.set nullAndTrue) ∧ overlapping.heap.Owns ⟨1⟩ (.set trueAndFalse) ∧
      (overlapping.heap.inst ⟨1⟩).cls = ⟨0⟩ ∧
      ∃ (i d : Ref .inst) (m' n : Machine),
        (intersection.call .idle ⟨0⟩ (some (.inst ⟨0⟩)) [.inst ⟨1⟩]).on overlapping =
          (.ok (.inst i), m') ∧
        (difference.call .idle ⟨0⟩ (some (.inst ⟨0⟩)) [.inst ⟨1⟩]).on m' = (.ok (.inst d), n) ∧
        (SetMethod.values.call .idle (some (.inst i)) []).MakesArray [.boolean true] n ∧
        (SetMethod.values.call .idle (some (.inst d)) []).MakesArray [.null] n := by
  have mine : overlapping.heap.Owns ⟨0⟩ (.set nullAndTrue) := rfl
  have theirs : overlapping.heap.Owns ⟨1⟩ (.set trueAndFalse) := rfl
  have sameClass : (overlapping.heap.inst ⟨1⟩).cls = ⟨0⟩ := rfl
  obtain ⟨i, d, m', n, common, rest, -, -, -, -, -, -, law, -⟩ :=
    selection_laws .idle mine theirs sameClass
  obtain ⟨-, listed, left⟩ := law.values .idle
  exact ⟨mine, theirs, sameClass, i, d, m', n, common, rest, listed, left⟩

end SetAlgebra

end ScriptCore
