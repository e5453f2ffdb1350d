import ScriptCore.Key
import ScriptCore.Number.Binary64
import ScriptCore.Proofs.Text.Quoted

/-!
A key can be written down and read back.

What is written for a key is what arrays are shown by: words for null, booleans and numbers, quoted
strings, and items between brackets with commas between them. A text that begins with what is
written for a key, and goes on with a comma, a bracket or nothing, begins so for no other key
(`Key.IsTree.toldApart`), whatever characters the strings have. Of the texts of numbers no more is
needed than that they are words (`IsNumberWord`) and tell apart the numbers that keys tell apart.
-/

namespace ScriptCore

/-! ### Texts of numbers -/

/-- Digits, minus signs and dots, at least one of them, or one of three names. -/
def IsNumberWord (word : List Char) : Prop :=
  (word ≠ [] ∧ ∀ c ∈ word, c.isDigit = true ∨ c = '-' ∨ c = '.') ∨
    word = "NaN".toList ∨ word = "Infinity".toList ∨ word = "-Infinity".toList

/-- A way of writing numbers by words that tell apart what keys tell apart, and nothing else. -/
structure TellsNumbers (numberText : Binary64 → String) : Prop where
  same_iff : ∀ x y, numberText x = numberText y ↔ x.normalize = y.normalize
  isWord : ∀ x, IsNumberWord (numberText x).toList

/-- A text without quotes, brackets and commas. -/
def IsWord (word : List Char) : Prop := word ≠ [] ∧ ∀ c ∈ word, c ∉ ['"', '[', ']', ',']

/-- A text that is looked through for special characters is a word. -/
theorem isWord_of_all {word : List Char} (nonempty : word ≠ [])
    (free : word.all (fun c => c ∉ ['"', '[', ']', ',']) = true) : IsWord word := by
  refine ⟨nonempty, ?_⟩
  intro c member
  exact of_decide_eq_true (List.all_eq_true.1 free c member)

theorem IsNumberWord.isWord {word : List Char} (written : IsNumberWord word) : IsWord word := by
  rcases written with ⟨nonempty, characters⟩ | rfl | rfl | rfl
  · refine ⟨nonempty, ?_⟩
    intro c member
    rcases characters c member with digit | rfl | rfl
    · intro special
      have noDigits : ['"', '[', ']', ','].all (fun c => !c.isDigit) = true := by decide
      have noDigit := List.all_eq_true.1 noDigits c special
      rw [digit] at noDigit
      cases noDigit
    · decide
    · decide
  all_goals exact isWord_of_all (by decide) (by decide)

theorem isWord_null : IsWord "null".toList := isWord_of_all (by decide) (by decide)

theorem isWord_boolean (b : Bool) : IsWord (if b then "true" else "false").toList := by
  cases b <;> exact isWord_of_all (by decide) (by decide)

/-- The text of a number is not one of the words for null and the booleans. -/
theorem IsNumberWord.ne_of_lower {word name : List Char} (written : IsNumberWord word)
    (lower : name ∈ ["null".toList, "true".toList, "false".toList]) : word ≠ name := by
  rintro rfl
  rcases written with ⟨-, characters⟩ | rfl | rfl | rfl
  · -- Each of them has the letter `l` or `r`, which no such text has.
    have letters : ["null".toList, "true".toList, "false".toList].all
        (fun name => name.contains 'l' || name.contains 'r') = true := by decide
    have letter := List.all_eq_true.1 letters _ lower
    rw [Bool.or_eq_true, List.contains_iff_mem, List.contains_iff_mem] at letter
    rcases letter with member | member
    · exact absurd (characters _ member) (by decide)
    · exact absurd (characters _ member) (by decide)
  all_goals revert lower; decide

theorem IsWord.append_ne {word : List Char} (isWord : IsWord word) {c : Char}
    (special : c ∈ ['"', '[', ']', ',']) (s t : List Char) : word ++ s ≠ c :: t := by
  intro same
  cases word with
  | nil => exact isWord.1 rfl
  | cons first rest =>
    obtain ⟨rfl, -⟩ := List.cons.inj same
    exact isWord.2 _ List.mem_cons_self special

/-! ### Writing a key -/

namespace Key

section Written

variable (numberText : Binary64 → String)

mutual

/-- What is written for a key. Strings are quoted; records and references are not written. -/
def written : Key → List Char
  | null => "null".toList
  | boolean b => (if b then "true" else "false").toList
  | number n => (numberText n).toList
  | text s => '"' :: Text.quoteChars s.toList ++ ['"']
  | sequence [] => ['[', ']']
  | sequence (item :: rest) => '[' :: written item ++ writtenRest rest
  | record _ | reference _ => []
termination_by structural k => k

/-- What is written behind an item of a sequence: the items after it, each behind a comma, and the
closing bracket. -/
def writtenRest : List Key → List Char
  | [] => [']']
  | item :: rest => ',' :: ' ' :: written item ++ writtenRest rest
termination_by structural items => items

end

end Written

/-- The key of a tree of arrays: its numbers stand for themselves. -/
inductive IsTree : Key → Prop where
  | null : IsTree null
  | boolean (b : Bool) : IsTree (boolean b)
  | number {n : Binary64} (normal : n.normalize = n) : IsTree (number n)
  | text (s : String) : IsTree (text s)
  | sequence {items : List Key} (trees : ∀ item ∈ items, IsTree item) : IsTree (sequence items)

/-! ### Reading it back -/

/-- Nothing follows, or a comma or a closing bracket does. -/
def Ends (rest : List Char) : Prop := ∀ c ∈ rest.head?, c = ',' ∨ c = ']'

theorem ends_writtenRest (numberText : Binary64 → String) (items : List Key) (s : List Char) :
    Ends (writtenRest numberText items ++ s) := by
  cases items <;> simp [Ends, writtenRest]

/-- A word can be told from an end that follows it. -/
theorem word_append_inj {word word' s t : List Char} (free : ∀ c ∈ word, c ∉ ['"', '[', ']', ','])
    (free' : ∀ c ∈ word', c ∉ ['"', '[', ']', ',']) (ends : Ends s) (ends' : Ends t)
    (same : word ++ s = word' ++ t) : word = word' ∧ s = t := by
  have separate : ∀ {c : Char}, c = ',' ∨ c = ']' → c ∈ ['"', '[', ']', ','] := by
    rintro c (rfl | rfl) <;> decide
  induction word generalizing word' with
  | nil =>
    cases word' with
    | nil => exact ⟨rfl, same⟩
    | cons c word' =>
      have first : c ∈ s.head? := by simp_all
      exact absurd (separate (ends c first)) (free' c List.mem_cons_self)
  | cons c word ih =>
    cases word' with
    | nil =>
      have first : c ∈ t.head? := by
        rw [List.nil_append] at same
        simp [← same]
      exact absurd (separate (ends' c first)) (free c List.mem_cons_self)
    | cons c' word' =>
      obtain ⟨rfl, rest⟩ := List.cons.inj same
      obtain ⟨sameWord, following⟩ := ih (fun d member => free d (List.mem_cons_of_mem _ member))
        (fun d member => free' d (List.mem_cons_of_mem _ member)) rest
      exact ⟨by rw [sameWord], following⟩

section Reading

variable {numberText : Binary64 → String}

/-- What is written between the brackets of a sequence, with the closing one. -/
def writtenItems (numberText : Binary64 → String) : List Key → List Char
  | [] => [']']
  | item :: rest => item.written numberText ++ writtenRest numberText rest

theorem written_sequence (items : List Key) :
    (sequence items).written numberText = '[' :: writtenItems numberText items := by
  cases items <;> simp [written, writtenItems]

theorem written_text (s : String) (rest : List Char) :
    (text s).written numberText ++ rest = '"' :: (Text.quoteChars s.toList ++ '"' :: rest) := by
  simp [written]

theorem writtenRest_cons (item : Key) (rest : List Key) (s : List Char) :
    writtenRest numberText (item :: rest) ++ s =
      ',' :: ' ' :: (item.written numberText ++ (writtenRest numberText rest ++ s)) := by
  simp [writtenRest]

theorem writtenItems_cons (item : Key) (rest : List Key) (s : List Char) :
    writtenItems numberText (item :: rest) ++ s =
      item.written numberText ++ (writtenRest numberText rest ++ s) := List.append_assoc _ _ _

/-- Written items with commas between them, and the closing bracket. -/
theorem intercalate_written (items : List Key) :
    ", ".toList.intercalate (items.map (written numberText)) ++ [']'] =
      writtenItems numberText items := by
  cases items with
  | nil => rfl
  | cons item rest =>
    rw [writtenItems]
    induction rest generalizing item with
    | nil => simp [writtenRest]
    | cons next rest ih =>
      rw [List.map_cons, List.map_cons, List.intercalate_cons_cons, List.append_assoc,
        ← List.map_cons, ih]
      simp [writtenRest]

/-- From a text that begins with what is written for the key, and then ends, the key and the rest
can be told. -/
def ToldApart (numberText : Binary64 → String) (k : Key) : Prop :=
  ∀ {l : Key} {s t : List Char}, l.IsTree → Ends s → Ends t →
    k.written numberText ++ s = l.written numberText ++ t → k = l ∧ s = t

/-- Of the trees, the scalars without quotes are written as words. -/
theorem IsTree.scalar_of_word {k : Key} (tree : k.IsTree) (isWord : IsWord (k.written numberText)) :
    k = .null ∨ (∃ b, k = .boolean b) ∨ ∃ n, n.normalize = n ∧ k = .number n := by
  cases tree with
  | null => exact .inl rfl
  | boolean b => exact .inr (.inl ⟨b, rfl⟩)
  | number normal => exact .inr (.inr ⟨_, normal, rfl⟩)
  | text s =>
    have quoted : (Key.text s).written numberText ++ [] = _ := written_text s []
    exact absurd quoted (isWord.append_ne (by decide) _ _)
  | @sequence items =>
    have bracketed := List.append_nil ((Key.sequence items).written numberText)
    rw [written_sequence] at bracketed isWord
    exact absurd bracketed (isWord.append_ne (by decide) _ _)

/-- If every item can be told apart, so can what is written behind an item. -/
theorem writtenRest_append_inj {items others : List Key} {s t : List Char}
    (told : ∀ item ∈ items, item.ToldApart numberText) (trees : ∀ other ∈ others, other.IsTree)
    (same : writtenRest numberText items ++ s = writtenRest numberText others ++ t) :
    items = others ∧ s = t := by
  induction items generalizing others with
  | nil =>
    cases others with
    | nil => exact ⟨rfl, (List.cons.inj same).2⟩
    | cons other others => cases (List.cons.inj same).1
  | cons item items ih =>
    cases others with
    | nil => cases (List.cons.inj same).1
    | cons other others =>
      rw [writtenRest_cons, writtenRest_cons] at same
      have behind := (List.cons.inj (List.cons.inj same).2).2
      obtain ⟨first, following⟩ := told item List.mem_cons_self (trees other List.mem_cons_self)
        (ends_writtenRest _ _ _) (ends_writtenRest _ _ _) behind
      obtain ⟨later, rest⟩ := ih (fun k member => told k (List.mem_cons_of_mem _ member))
        (fun k member => trees k (List.mem_cons_of_mem _ member)) following
      exact ⟨by rw [first, later], rest⟩

variable (tells : TellsNumbers numberText)

include tells

/-- A tree is written as a word, as a quoted string or between brackets. -/
theorem IsTree.shape {k : Key} (tree : k.IsTree) :
    IsWord (k.written numberText) ∨ (∃ s, k = .text s) ∨
      ∃ items, k = .sequence items ∧ ∀ item ∈ items, item.IsTree := by
  cases tree with
  | null => exact .inl isWord_null
  | boolean b => exact .inl (isWord_boolean b)
  | number => exact .inl (tells.isWord _).isWord
  | text s => exact .inr (.inl ⟨s, rfl⟩)
  | sequence trees => exact .inr (.inr ⟨_, rfl, trees⟩)

/-- No tree is written as nothing or begins with a closing bracket. -/
theorem IsTree.written_append_ne {k : Key} (tree : k.IsTree) (s t : List Char) :
    k.written numberText ++ s ≠ ']' :: t := by
  rcases tree.shape tells with isWord | ⟨text, rfl⟩ | ⟨items, rfl, -⟩
  · exact isWord.append_ne (by decide) s t
  · rw [written_text]
    simp
  · rw [written_sequence]
    simp

/-- Trees that are written as the same word are the same scalar. -/
theorem IsTree.eq_of_word {k l : Key} (tree : k.IsTree) (tree' : l.IsTree)
    (isWord : IsWord (k.written numberText))
    (same : k.written numberText = l.written numberText) : k = l := by
  have lower : ∀ n, ∀ name ∈ ["null".toList, "true".toList, "false".toList],
      (numberText n).toList ≠ name := fun n name => (tells.isWord n).ne_of_lower
  have isWord' := isWord
  rw [same] at isWord'
  rcases tree.scalar_of_word isWord with rfl | ⟨b, rfl⟩ | ⟨n, normal, rfl⟩ <;>
    rcases tree'.scalar_of_word isWord' with rfl | ⟨b', rfl⟩ | ⟨n', normal', rfl⟩
  · rfl
  · cases b' <;> simp [written] at same
  · exact absurd same.symm (lower n' _ (by simp [written]))
  · cases b <;> simp [written] at same
  · cases b <;> cases b' <;> simp [written] at same ⊢
  · refine absurd same.symm (lower n' _ ?_)
    cases b <;> simp [written]
  · exact absurd same (lower n _ (by simp [written]))
  · refine absurd same (lower n _ ?_)
    cases b' <;> simp [written]
  · have numbers := (tells.same_iff n n').1 (String.toList_inj.1 same)
    rw [normal, normal'] at numbers
    rw [numbers]

/-- If every item can be told apart, so can what is written between brackets. -/
theorem writtenItems_append_inj {items others : List Key} {s t : List Char}
    (told : ∀ item ∈ items, item.ToldApart numberText) (trees : ∀ item ∈ items, item.IsTree)
    (trees' : ∀ other ∈ others, other.IsTree)
    (same : writtenItems numberText items ++ s = writtenItems numberText others ++ t) :
    items = others ∧ s = t := by
  cases items with
  | nil =>
    cases others with
    | nil => exact ⟨rfl, (List.cons.inj same).2⟩
    | cons other others =>
      rw [writtenItems_cons] at same
      exact absurd same.symm ((trees' other List.mem_cons_self).written_append_ne tells _ _)
  | cons item items =>
    cases others with
    | nil =>
      rw [writtenItems_cons] at same
      exact absurd same ((trees item List.mem_cons_self).written_append_ne tells _ _)
    | cons other others =>
      rw [writtenItems_cons, writtenItems_cons] at same
      obtain ⟨first, following⟩ := told item List.mem_cons_self (trees' other List.mem_cons_self)
        (ends_writtenRest _ _ _) (ends_writtenRest _ _ _) same
      obtain ⟨later, rest⟩ := writtenRest_append_inj
        (fun k member => told k (List.mem_cons_of_mem _ member))
        (fun k member => trees' k (List.mem_cons_of_mem _ member)) following
      exact ⟨by rw [first, later], rest⟩

theorem toldApart_of_word {k : Key} (tree : k.IsTree) (isWord : IsWord (k.written numberText)) :
    k.ToldApart numberText := by
  intro l s t tree' ends ends' same
  rcases tree'.shape tells with isWord' | ⟨text, rfl⟩ | ⟨others, rfl, -⟩
  · obtain ⟨word, rest⟩ := word_append_inj isWord.2 isWord'.2 ends ends' same
    exact ⟨tree.eq_of_word tells tree' isWord word, rest⟩
  · rw [written_text] at same
    exact absurd same (isWord.append_ne (by decide) _ _)
  · rw [written_sequence] at same
    exact absurd same (isWord.append_ne (by decide) _ _)

theorem toldApart_text (string : String) : (Key.text string).ToldApart numberText := by
  intro l s t tree' _ _ same
  rw [written_text] at same
  rcases tree'.shape tells with isWord | ⟨other, rfl⟩ | ⟨others, rfl, -⟩
  · exact absurd same.symm (isWord.append_ne (by decide) _ _)
  · rw [written_text] at same
    obtain ⟨characters, rest⟩ := Text.quoteChars_append_inj (List.cons.inj same).2
    exact ⟨by rw [String.toList_inj.1 characters], rest⟩
  · rw [written_sequence] at same
    cases (List.cons.inj same).1

theorem toldApart_sequence {items : List Key} (trees : ∀ item ∈ items, item.IsTree)
    (told : ∀ item ∈ items, item.ToldApart numberText) :
    (Key.sequence items).ToldApart numberText := by
  intro l s t tree' _ _ same
  rw [written_sequence] at same
  rcases tree'.shape tells with isWord | ⟨text, rfl⟩ | ⟨others, rfl, trees'⟩
  · exact absurd same.symm (isWord.append_ne (by decide) _ _)
  · rw [written_text] at same
    cases (List.cons.inj same).1
  · rw [written_sequence] at same
    obtain ⟨rfl, rest⟩ := writtenItems_append_inj tells told trees trees' (List.cons.inj same).2
    exact ⟨rfl, rest⟩

/-- What is written for a tree can be read back. -/
theorem IsTree.toldApart {k : Key} (tree : k.IsTree) : k.ToldApart numberText := by
  induction tree with
  | null => exact toldApart_of_word tells .null isWord_null
  | boolean b => exact toldApart_of_word tells (.boolean b) (isWord_boolean b)
  | number normal => exact toldApart_of_word tells (.number normal) (tells.isWord _).isWord
  | text s => exact toldApart_text tells s
  | sequence trees ih => exact toldApart_sequence tells trees ih

theorem IsTree.written_inj {k l : Key} (tree : k.IsTree) (tree' : l.IsTree)
    (same : k.written numberText = l.written numberText) : k = l := by
  have ends : Ends [] := by simp [Ends]
  refine (tree.toldApart tells tree' ends ends ?_).1
  rw [List.append_nil, List.append_nil, same]

end Reading

end Key

end ScriptCore
