import Mathlib.Data.List.Perm.Basic
import ScriptCore.Proofs.Numbers
import ScriptCore.Store.Priority

/-!
The most urgent entry of a queue.

A queue follows a list of rows in the order in which they were pushed, each a priority and a value.
The row that leaves is the first one than which no other is sooner. The store keeps its entries in a
tree, ordered by rank and arrival: ranks order as the priorities do, arrivals tell the place in the
list, and so the entry on top of the tree is the one of that row.
-/

namespace ScriptCore

/-! ### Priorities and ranks -/

/-- Whether a priority leaves sooner than another one. -/
def QueueOrder.sooner (order : QueueOrder) (p q : Binary64) : Bool :=
  match order with
  | min => p.numLt q
  | max => q.numLt p

namespace PriorityStore

/-- Both zeros have the rank of positive zero. -/
theorem rank_of_zero (order : QueueOrder) {p : Binary64} (zero : p.orderKey = 0) :
    rank order p = match order with
      | .min => -1
      | .max => 0 := by
  have isZero : p.isZero = true := decide_eq_true ((Binary64.orderKey_eq_zero_iff p).1 zero)
  unfold rank
  rw [if_pos isZero]
  cases order <;> rfl

theorem rank_of_ne_zero (order : QueueOrder) {p : Binary64} (nonzero : p.orderKey ≠ 0) :
    rank order p = match order with
      | .min => p.neg.totalKey
      | .max => p.totalKey := by
  have notZero : ¬ p.isZero = true := fun isZero =>
    nonzero ((Binary64.orderKey_eq_zero_iff p).2 (of_decide_eq_true isZero))
  have same : (if p.isZero then Binary64.zero else p) = p := if_neg notZero
  cases order with
  | min => exact congrArg (fun q => q.neg.totalKey) same
  | max => exact congrArg (fun q => q.totalKey) same

theorem rank_max (p : Binary64) :
    rank .max p = if p.orderKey < 0 then p.orderKey - 1 else p.orderKey := by
  by_cases zero : p.orderKey = 0
  · rw [rank_of_zero .max zero, zero]
    rfl
  · rw [rank_of_ne_zero .max zero]
    exact Binary64.totalKey_of_ne_zero zero

theorem rank_min (p : Binary64) :
    rank .min p = if p.orderKey < 0 then -p.orderKey else -p.orderKey - 1 := by
  by_cases zero : p.orderKey = 0
  · rw [rank_of_zero .min zero, zero]
    rfl
  · have opposite := p.orderKey_neg
    have key := Binary64.totalKey_of_ne_zero (x := p.neg) (by omega)
    rw [rank_of_ne_zero .min zero]
    dsimp only
    rw [key, opposite]
    split <;> split <;> omega

/-- Ranks order as priorities leave; NaN has no place among them. -/
theorem rank_lt_iff (order : QueueOrder) {p q : Binary64} (number : p.isNaN = false)
    (number' : q.isNaN = false) :
    rank order q < rank order p ↔ order.sooner p q = true := by
  cases order with
  | min =>
    simp only [rank_min, QueueOrder.sooner, Binary64.numLt, number, number', Bool.not_false,
      Bool.true_and, decide_eq_true_iff]
    split <;> split <;> omega
  | max =>
    simp only [rank_max, QueueOrder.sooner, Binary64.numLt, number, number', Bool.not_false,
      Bool.true_and, decide_eq_true_iff]
    split <;> split <;> omega

end PriorityStore

/-! ### Entries -/

namespace QueueEntry

variable {a b c : QueueEntry}

theorem precedes_iff :
    a.precedes b = true ↔ b.rank < a.rank ∨ a.rank = b.rank ∧ a.arrival < b.arrival := by
  simp [precedes]

theorem not_precedes_iff :
    a.precedes b = false ↔ a.rank < b.rank ∨ a.rank = b.rank ∧ b.arrival ≤ a.arrival := by
  rw [← Bool.not_eq_true, precedes_iff]
  omega

theorem not_precedes_trans (first : a.precedes b = false) (second : b.precedes c = false) :
    a.precedes c = false := by
  rw [not_precedes_iff] at *
  omega

theorem not_precedes_of_precedes (first : b.precedes a = true) : a.precedes b = false := by
  rw [precedes_iff] at first
  rw [not_precedes_iff]
  omega

end QueueEntry

/-! ### Trees -/

namespace QueueTree

/-- The entries of a tree. -/
def entries (tree : QueueTree) : List QueueEntry := tree.entriesOnto []

theorem entriesOnto_eq (tree : QueueTree) (others : List QueueEntry) :
    tree.entriesOnto others = tree.entries ++ others := by
  unfold entries
  induction tree generalizing others with
  | empty => rfl
  | node entry left right ihLeft ihRight =>
    rw [entriesOnto, entriesOnto, ihLeft, ihLeft (right.entriesOnto [entry]), ihRight,
      ihRight [entry]]
    simp

theorem entries_node (entry : QueueEntry) (left right : QueueTree) :
    (node entry left right).entries = left.entries ++ (right.entries ++ [entry]) := by
  rw [entries, entriesOnto, entriesOnto_eq, entriesOnto_eq]

theorem mem_entries_node {entry : QueueEntry} {left right : QueueTree} {x : QueueEntry} :
    x ∈ (node entry left right).entries ↔
      x = entry ∨ x ∈ left.entries ∨ x ∈ right.entries := by
  rw [entries_node]
  simp only [List.mem_append, List.mem_singleton]
  tauto

theorem length_entries (tree : QueueTree) : tree.entries.length = tree.count := by
  induction tree with
  | empty => rfl
  | node entry left right ihLeft ihRight =>
    rw [entries_node, List.length_append, List.length_append, ihLeft, ihRight, count]
    rfl

section Join

variable {entry : QueueEntry} {left right : QueueTree} {joinRight : QueueTree → QueueTree}

theorem perm_joinNode
    (perm_joinRight : ∀ other, (joinRight other).entries.Perm (right.entries ++ other.entries))
    (other : QueueTree) :
    (joinNode entry left right joinRight other).entries.Perm
      ((node entry left right).entries ++ other.entries) := by
  induction other with
  | empty =>
    rw [joinNode]
    exact .of_eq (List.append_nil _).symm
  | node other otherLeft otherRight _ ih =>
    rw [joinNode]
    split
    · refine List.perm_iff_count.2 fun x => ?_
      have below := ih.count_eq x
      simp only [entries_node, List.count_append] at below ⊢
      omega
    · refine List.perm_iff_count.2 fun x => ?_
      have below := (perm_joinRight (node other otherLeft otherRight)).count_eq x
      simp only [entries_node, List.count_append] at below ⊢
      omega

/-- Joining keeps the entries of both trees. -/
theorem perm_join (tree other : QueueTree) :
    (tree.join other).entries.Perm (tree.entries ++ other.entries) := by
  induction tree generalizing other with
  | empty => exact .refl _
  | node entry left right _ ih => exact perm_joinNode ih other

/-- The entry on top and the rest are the entries of the tree. -/
theorem perm_rest (entry : QueueEntry) (left right : QueueTree) :
    (node entry left right).entries.Perm (entry :: (node entry left right).rest.entries) := by
  refine List.perm_iff_count.2 fun x => ?_
  have below := (perm_join left right).count_eq x
  simp only [rest, entries_node, List.count_append, List.count_cons, List.count_nil] at below ⊢
  omega

/-- No entry leaves before the one above it. -/
def Heaped : QueueTree → Prop
  | empty => True
  | node entry left right =>
    (∀ below ∈ left.entries ++ right.entries, below.precedes entry = false) ∧
      left.Heaped ∧ right.Heaped

/-- No entry of a tree leaves before the one on top. -/
theorem Heaped.not_precedes_top (heaped : (node entry left right).Heaped) :
    ∀ x ∈ (node entry left right).entries, x.precedes entry = false := by
  intro x member
  rcases mem_entries_node.1 member with rfl | below
  · exact QueueEntry.not_precedes_iff.2 (.inr ⟨rfl, Nat.le_refl _⟩)
  · exact heaped.1 x (List.mem_append.2 below)

theorem heaped_joinNode (heaped : (node entry left right).Heaped)
    (perm_joinRight : ∀ other, (joinRight other).entries.Perm (right.entries ++ other.entries))
    (heaped_joinRight : ∀ other, other.Heaped → (joinRight other).Heaped)
    {other : QueueTree} (otherHeaped : other.Heaped) :
    (joinNode entry left right joinRight other).Heaped := by
  induction other with
  | empty => exact heaped
  | node other otherLeft otherRight _ ih =>
    rw [joinNode]
    split
    · -- The other tree's entry comes on top: all of this tree is below it as this entry is.
      rename_i first
      refine ⟨fun below member => ?_, ih otherHeaped.2.2, otherHeaped.2.1⟩
      rcases List.mem_append.1 member with joined | onLeft
      · rcases List.mem_append.1 ((perm_joinNode perm_joinRight otherRight).subset joined) with
          mine | theirs
        · exact QueueEntry.not_precedes_trans (heaped.not_precedes_top below mine)
            (QueueEntry.not_precedes_of_precedes first)
        · exact otherHeaped.1 below (List.mem_append_right _ theirs)
      · exact otherHeaped.1 below (List.mem_append_left _ onLeft)
    · rename_i notFirst
      refine ⟨fun below member => ?_, heaped_joinRight _ otherHeaped, heaped.2.1⟩
      rcases List.mem_append.1 member with joined | onLeft
      · rcases List.mem_append.1 ((perm_joinRight _).subset joined) with mine | theirs
        · exact heaped.1 below (List.mem_append_right _ mine)
        · exact QueueEntry.not_precedes_trans (otherHeaped.not_precedes_top below theirs)
            (Bool.eq_false_iff.2 notFirst)
      · exact heaped.1 below (List.mem_append_left _ onLeft)

theorem heaped_join {tree other : QueueTree} (heaped : tree.Heaped) (otherHeaped : other.Heaped) :
    (tree.join other).Heaped := by
  induction tree generalizing other with
  | empty => exact otherHeaped
  | node entry left right _ ih =>
    exact heaped_joinNode heaped (perm_join right) (fun _ => ih heaped.2.2) otherHeaped

theorem heaped_single (entry : QueueEntry) : (node entry empty empty).Heaped :=
  ⟨List.forall_mem_nil _, trivial, trivial⟩

theorem heaped_rest {tree : QueueTree} (heaped : tree.Heaped) : tree.rest.Heaped := by
  cases tree with
  | empty => trivial
  | node entry left right => exact heaped_join heaped.2.1 heaped.2.2

end Join

end QueueTree

/-! ### Rows -/

/-- A priority, and the value that was pushed with it. -/
abbrev QueueRow := Binary64 × Value

namespace QueueOrder

/-- Whether no row is sooner than the given one. -/
def isUrgent (order : QueueOrder) (rows : List QueueRow) (row : QueueRow) : Bool :=
  rows.all fun other => !order.sooner other.1 row.1

/-- The row that leaves: the first one than which no other is sooner. -/
def urgent? (order : QueueOrder) (rows : List QueueRow) : Option QueueRow :=
  rows.find? (order.isUrgent rows)

/-- The rows without the one that leaves. -/
def withoutUrgent (order : QueueOrder) (rows : List QueueRow) : List QueueRow :=
  rows.eraseP (order.isUrgent rows)

/-- A row than which no other is sooner, and which is sooner than all rows before it, leaves. -/
theorem urgent_split (order : QueueOrder) {before after : List QueueRow} {row : QueueRow}
    (foremost : ∀ other ∈ before ++ row :: after, order.sooner other.1 row.1 = false)
    (later : ∀ earlier ∈ before, order.sooner row.1 earlier.1 = true) :
    order.urgent? (before ++ row :: after) = some row ∧
      order.withoutUrgent (before ++ row :: after) = before ++ after := by
  have urgent : order.isUrgent (before ++ row :: after) row = true := by
    rw [isUrgent, List.all_eq_true]
    intro other member
    rw [foremost other member]
    rfl
  have others : ∀ earlier ∈ before,
      ¬ order.isUrgent (before ++ row :: after) earlier = true := by
    intro earlier member isUrgent
    have notSooner := List.all_eq_true.1 isUrgent row (by simp)
    rw [later earlier member] at notSooner
    cases notSooner
  constructor
  · have skipped : before.find? (order.isUrgent (before ++ row :: after)) = none :=
      List.find?_eq_none.2 others
    rw [urgent?, List.find?_append, skipped, Option.none_or, List.find?_cons_of_pos urgent]
  · rw [withoutUrgent, List.eraseP_append_right _ others, List.eraseP_cons_of_pos urgent]

end QueueOrder

/-! ### Places -/

/-- A row with the entry that the store keeps for it. -/
structure QueuePlace where
  priority : Binary64
  entry : QueueEntry

/-- The row of a place. -/
def QueuePlace.row (place : QueuePlace) : QueueRow := (place.priority, place.entry.value)

/-- Places in order of arrival, each with the rank of its priority, of which so many arrived. -/
structure QueuePlaces (order : QueueOrder) (arrivals : Nat) (places : List QueuePlace) :
    Prop where
  inOrder : places.Pairwise fun place next => place.entry.arrival < next.entry.arrival
  number : ∀ place ∈ places, place.priority.isNaN = false
  ranked : ∀ place ∈ places, place.entry.rank = PriorityStore.rank order place.priority
  arrived : ∀ place ∈ places, place.entry.arrival < arrivals

namespace QueuePlaces

variable {order : QueueOrder} {arrivals : Nat} {places places' : List QueuePlace}

theorem nil (order : QueueOrder) (arrivals : Nat) : QueuePlaces order arrivals [] :=
  ⟨.nil, List.forall_mem_nil _, List.forall_mem_nil _, List.forall_mem_nil _⟩

theorem sublist (lists : QueuePlaces order arrivals places) (sub : places'.Sublist places) :
    QueuePlaces order arrivals places' where
  inOrder := lists.inOrder.sublist sub
  number place member := lists.number place (sub.subset member)
  ranked place member := lists.ranked place (sub.subset member)
  arrived place member := lists.arrived place (sub.subset member)

/-- One more place, of the next arrival. -/
theorem concat (lists : QueuePlaces order arrivals places) {priority : Binary64}
    (number : priority.isNaN = false) (value : Value) :
    QueuePlaces order (arrivals + 1)
      (places ++ [⟨priority, PriorityStore.rank order priority, arrivals, value⟩]) where
  inOrder := by
    refine List.pairwise_append.2 ⟨lists.inOrder, List.pairwise_singleton _ _, ?_⟩
    intro place member last isLast
    rw [List.mem_singleton.1 isLast]
    exact lists.arrived place member
  number := List.forall_mem_append.2 ⟨lists.number, List.forall_mem_singleton.2 number⟩
  ranked := List.forall_mem_append.2 ⟨lists.ranked, List.forall_mem_singleton.2 rfl⟩
  arrived := List.forall_mem_append.2
    ⟨fun place member => Nat.lt_succ_of_lt (lists.arrived place member),
      List.forall_mem_singleton.2 (Nat.lt_succ_self _)⟩

/-- The row of the place whose entry no other one precedes is the row that leaves. -/
theorem urgent {before after : List QueuePlace} {top : QueuePlace}
    (lists : QueuePlaces order arrivals (before ++ top :: after))
    (first : ∀ place ∈ before ++ top :: after, place.entry.precedes top.entry = false) :
    order.urgent? ((before ++ top :: after).map QueuePlace.row) = some top.row ∧
      order.withoutUrgent ((before ++ top :: after).map QueuePlace.row) =
        (before ++ after).map QueuePlace.row := by
  have here : top ∈ before ++ top :: after := by simp
  have topNumber := lists.number top here
  have topRank := lists.ranked top here
  rw [List.map_append, List.map_append, List.map_cons]
  refine order.urgent_split ?_ ?_
  · rw [← List.map_cons, ← List.map_append, List.forall_mem_map]
    intro place member
    have notFirst := QueueEntry.not_precedes_iff.1 (first place member)
    refine Bool.eq_false_iff.2 fun sooner => ?_
    have above := (PriorityStore.rank_lt_iff order (lists.number place member) topNumber).2 sooner
    rw [← lists.ranked place member, ← topRank] at above
    omega
  · rw [List.forall_mem_map]
    intro place member
    have listed : place ∈ before ++ top :: after := List.mem_append_left _ member
    have notFirst := QueueEntry.not_precedes_iff.1 (first place listed)
    have earlier : place.entry.arrival < top.entry.arrival :=
      (List.pairwise_append.1 lists.inOrder).2.2 place member top List.mem_cons_self
    refine (PriorityStore.rank_lt_iff order topNumber (lists.number place listed)).1 ?_
    rw [← lists.ranked place listed, ← topRank]
    omega

end QueuePlaces

/-! ### Stores -/

namespace PriorityStore

/-- The store stands for the rows: its entries are those of places with these rows. -/
structure StandsFor (store : PriorityStore) (order : QueueOrder) (rows : List QueueRow) : Prop where
  order_eq : store.order = order
  heaped : store.waiting.Heaped
  listed : ∃ places : List QueuePlace, rows = places.map QueuePlace.row ∧
    QueuePlaces order store.arrivals places ∧
    (places.map QueuePlace.entry).Perm store.waiting.entries

variable {store : PriorityStore} {order : QueueOrder} {rows : List QueueRow}

theorem standsFor_empty (order : QueueOrder) : (empty order).StandsFor order [] where
  order_eq := rfl
  heaped := trivial
  listed := ⟨[], rfl, .nil order _, .refl _⟩

namespace StandsFor

theorem size_eq (stands : store.StandsFor order rows) : store.size = rows.length := by
  obtain ⟨places, rfl, -, perm⟩ := stands.listed
  rw [store.size_eq, ← QueueTree.length_entries, ← perm.length_eq, List.length_map, List.length_map]

theorem clear (stands : store.StandsFor order rows) : store.clear.StandsFor order [] := by
  rw [PriorityStore.clear, stands.order_eq]
  exact standsFor_empty order

/-- A value that is pushed comes behind all others. -/
theorem push (stands : store.StandsFor order rows) (value : Value) {priority : Binary64}
    (number : priority.isNaN = false) :
    (store.push value priority).StandsFor order (rows ++ [(priority, value)]) := by
  obtain ⟨places, rfl, lists, perm⟩ := stands.listed
  obtain rfl := stands.order_eq
  let entry : QueueEntry := ⟨rank store.order priority, store.arrivals, value⟩
  refine ⟨rfl, QueueTree.heaped_join stands.heaped (QueueTree.heaped_single entry), _, ?_,
    lists.concat number value, ?_⟩
  · rw [List.map_append]
    rfl
  · rw [List.map_append]
    have joined := QueueTree.perm_join store.waiting (.node entry .empty .empty)
    exact (perm.append_right [entry]).trans joined.symm

/-- The entry on top of the tree is that of the row that leaves, and the rest of the tree has those
of the other rows. -/
theorem leave (stands : store.StandsFor order rows) :
    store.peek? = (order.urgent? rows).map Prod.snd ∧
      store.pop.StandsFor order (order.withoutUrgent rows) := by
  obtain ⟨places, rfl, lists, perm⟩ := stands.listed
  have heaped := stands.heaped
  have rest : store.pop.waiting = store.waiting.rest := rfl
  cases tree : store.waiting with
  | empty =>
    rw [tree] at perm rest
    obtain rfl : places = [] := List.map_eq_nil_iff.1 perm.eq_nil
    refine ⟨by rw [peek?, tree]; rfl, stands.order_eq, QueueTree.heaped_rest heaped, [], rfl,
      lists, ?_⟩
    rw [rest]
    exact .refl _
  | node top left right =>
    rw [tree] at perm heaped rest
    have onTop : top ∈ places.map QueuePlace.entry :=
      perm.mem_iff.2 (QueueTree.mem_entries_node.2 (.inl rfl))
    obtain ⟨place, member, rfl⟩ := List.mem_map.1 onTop
    obtain ⟨before, after, rfl⟩ := List.append_of_mem member
    have urgent := lists.urgent fun other listed =>
      heaped.not_precedes_top _ (perm.subset (List.mem_map_of_mem listed))
    rw [urgent.1, urgent.2]
    refine ⟨by rw [peek?, tree]; rfl, stands.order_eq, ?_, before ++ after, rfl,
      lists.sublist (by simp), ?_⟩
    · rw [rest]
      exact QueueTree.heaped_rest heaped
    · rw [rest]
      have moved : ((before ++ place :: after).map QueuePlace.entry).Perm
          (place.entry :: (before ++ after).map QueuePlace.entry) :=
        List.perm_middle.map QueuePlace.entry
      exact ((moved.symm.trans perm).trans (QueueTree.perm_rest place.entry left right)).cons_inv

end StandsFor

end PriorityStore

end ScriptCore
