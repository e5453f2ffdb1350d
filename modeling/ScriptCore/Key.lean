import ScriptCore.Value

/-!
Keys: what a map or a set knows an entry by.

A key is a tree that shows the content of a value at the moment when the key was taken. All NaNs
share a key, and so do the two zeros; arrays and objects are known by their content, objects
whatever the order of their entries; functions, classes, instances and promises by what they are.
-/

namespace ScriptCore

/-- What a map or a set compares. -/
inductive Key where
  | null
  | boolean (b : Bool)
  | number (n : Binary64)
  | text (s : String)
  | sequence (items : List Key)
  | record (fields : List (String × Key))
  | reference (identity : Identity)
  deriving Repr

instance : Inhabited Key := ⟨.null⟩

namespace Key

mutual

/-- Whether two keys are the same tree. -/
def same : Key → Key → Bool
  | null, null => true
  | boolean a, boolean b => decide (a = b)
  | number a, number b => decide (a = b)
  | text a, text b => decide (a = b)
  | sequence as, sequence bs => sameItems as bs
  | record as, record bs => sameFields as bs
  | reference a, reference b => decide (a = b)
  | _, _ => false

/-- Whether two lists of keys agree place by place. -/
def sameItems : List Key → List Key → Bool
  | [], [] => true
  | a :: as, b :: bs => same a b && sameItems as bs
  | _, _ => false

/-- Whether two lists of fields agree place by place. -/
def sameFields : List (String × Key) → List (String × Key) → Bool
  | [], [] => true
  | (k, a) :: as, (l, b) :: bs => decide (k = l) && same a b && sameFields as bs
  | _, _ => false

end

mutual

theorem same_iff : ∀ a b : Key, same a b = true ↔ a = b
  | null, b => by cases b <;> simp [same]
  | boolean a, b => by cases b <;> simp [same]
  | number a, b => by cases b <;> simp [same]
  | text a, b => by cases b <;> simp [same]
  | sequence as, b => by cases b <;> simp [same, sameItems_iff as]
  | record as, b => by cases b <;> simp [same, sameFields_iff as]
  | reference a, b => by cases b <;> simp [same]

theorem sameItems_iff : ∀ as bs : List Key, sameItems as bs = true ↔ as = bs
  | [], bs => by cases bs <;> simp [sameItems]
  | a :: as, bs => by cases bs <;> simp [sameItems, same_iff a, sameItems_iff as]

theorem sameFields_iff : ∀ as bs : List (String × Key), sameFields as bs = true ↔ as = bs
  | [], bs => by cases bs <;> simp [sameFields]
  | (k, a) :: as, bs => by
    cases bs <;> simp [sameFields, same_iff a, sameFields_iff as, Prod.ext_iff, and_assoc]

end

instance : DecidableEq Key := fun a b => decidable_of_iff _ (same_iff a b)

mutual

/-- The fingerprint of a key: its kind, and what it is made of. -/
def fingerprint : Key → Nat
  | null => 1
  | boolean b => if b then 2 else 3
  | number n => Fingerprint.ofWord 4 n.bits
  | text s => Fingerprint.ofText 5 s
  | sequence items => ofItems 6 items
  | record fields => ofFields 7 fields
  | reference identity => Fingerprint.mix (8 + identity.kind.ctorIdx) identity.index

/-- Takes keys into a fingerprint, in order. -/
def ofItems (print : Nat) : List Key → Nat
  | [] => print
  | item :: rest => ofItems (Fingerprint.mix print item.fingerprint) rest

/-- Takes fields into a fingerprint, in order. -/
def ofFields (print : Nat) : List (String × Key) → Nat
  | [] => print
  | (name, item) :: rest =>
    ofFields (Fingerprint.mix (Fingerprint.ofText print name) item.fingerprint) rest

end

instance : Fingerprint Key := ⟨fingerprint⟩

/-- Adds a field before the first one with a later name. -/
def insertField (field : String × Key) : List (String × Key) → List (String × Key)
  | [] => [field]
  | first :: rest =>
    if field.1 < first.1 then field :: first :: rest else first :: insertField field rest

/-- Fields ordered by name; fields of one name keep their order. -/
def sortFields (fields : List (String × Key)) : List (String × Key) :=
  fields.foldl (fun sorted field => insertField field sorted) []

end Key

end ScriptCore
