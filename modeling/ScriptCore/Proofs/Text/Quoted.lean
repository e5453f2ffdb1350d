import Mathlib.Data.List.Basic
import ScriptCore.Text.Basic

/-!
Quoted text is read in one way only.

The written forms of characters between quotes make a code: from a text that begins with one of
them the character and the rest can be told (`WrittenForm.append_inj`), and none begins with a
quote. So the first quote that is not part of a written form ends the string
(`quoteChars_append_inj`), whatever characters the string has.
-/

namespace ScriptCore.Text

/-! ### Hexadecimal digits -/

/-- All digits but the last one, and the last one. -/
theorem toDigits_snoc (n : Nat) :
    Nat.toDigits 16 n =
      (if n < 16 then [] else Nat.toDigits 16 (n / 16)) ++ [Nat.digitChar (n % 16)] := by
  rw [Nat.toDigits_eq_if (by decide)]
  split
  · rename_i small
    rw [Nat.mod_eq_of_lt small]
    rfl
  · rfl

theorem digitChar_inj {n m : Nat} (small : n < 16) (small' : m < 16)
    (same : Nat.digitChar n = Nat.digitChar m) : n = m := by
  have all : ∀ n m : Fin 16, Nat.digitChar n = Nat.digitChar m → n = m := by decide
  exact congrArg Fin.val (all ⟨n, small⟩ ⟨m, small'⟩ same)

theorem toDigits_inj {n m : Nat} (same : Nat.toDigits 16 n = Nat.toDigits 16 m) : n = m := by
  induction n using Nat.strongRecOn generalizing m with
  | _ n ih =>
    rw [toDigits_snoc n, toDigits_snoc m] at same
    obtain ⟨front, last⟩ := List.append_inj' same rfl
    have lastSame : n % 16 = m % 16 := by
      apply digitChar_inj (Nat.mod_lt _ (by decide)) (Nat.mod_lt _ (by decide))
      exact List.head_eq_of_cons_eq last
    have restSame : n / 16 = m / 16 := by
      split at front <;> split at front
      · omega
      · exact absurd front.symm Nat.toDigits_ne_nil
      · exact absurd front Nat.toDigits_ne_nil
      · exact ih (n / 16) (by omega) front
    omega

/-- No digit is a closing brace. -/
theorem brace_not_mem_toDigits (n : Nat) : '\x7d' ∉ Nat.toDigits 16 n := by
  induction n using Nat.strongRecOn with
  | _ n ih =>
    rw [toDigits_snoc]
    intro member
    rcases List.mem_append.1 member with front | last
    · split at front
      · exact List.not_mem_nil front
      · exact ih (n / 16) (by omega) front
    · exact Nat.digitChar_ne '\x7d' rfl (List.mem_singleton.1 last).symm

/-! ### One character -/

/-- What a letter after a backslash stands for, if it stands for a character by itself. -/
def letterEscape? (letter : Char) : Option Char :=
  [('0', '\x00'), ('t', '\t'), ('r', '\r'), ('n', '\n'), ('\\', '\\'), ('"', '"')].lookup letter

/-- The three written forms: a backslash and a letter, a code point, or the character itself. -/
inductive WrittenForm (c : Char) : List Char → Prop where
  | letter {letter : Char} (stands : letterEscape? letter = some c) :
      WrittenForm c ['\\', letter]
  | code : WrittenForm c (codeEscape c)
  | plain (noBackslash : c ≠ '\\') (noQuote : c ≠ '"') : WrittenForm c [c]

theorem writtenForm_quoteChar (c : Char) : WrittenForm c (quoteChar c) := by
  unfold quoteChar
  split_ifs with nul tab carriageReturn newline backslash quote
  · exact .letter (by rw [nul]; rfl)
  · exact .letter (by rw [tab]; rfl)
  · exact .letter (by rw [carriageReturn]; rfl)
  · exact .letter (by rw [newline]; rfl)
  · exact .letter (by rw [backslash]; rfl)
  · exact .letter (by rw [quote]; rfl)
  · exact .code
  · exact .plain backslash quote

/-- A list that ends before a mark which it does not hold can be told from what follows. -/
theorem append_mark_inj {α : Type} {mark : α} {as bs s t : List α} (free : mark ∉ as)
    (free' : mark ∉ bs) (same : as ++ mark :: s = bs ++ mark :: t) : as = bs ∧ s = t := by
  induction as generalizing bs with
  | nil =>
    cases bs with
    | nil => exact ⟨rfl, (List.cons.inj same).2⟩
    | cons b bs => exact absurd ((List.cons.inj same).1 ▸ List.mem_cons_self) free'
  | cons a as ih =>
    cases bs with
    | nil => exact absurd ((List.cons.inj same).1 ▸ List.mem_cons_self) free
    | cons b bs =>
      obtain ⟨head, tail⟩ := List.cons.inj same
      obtain ⟨front, rest⟩ := ih (List.not_mem_of_not_mem_cons free)
        (List.not_mem_of_not_mem_cons free') tail
      exact ⟨by rw [head, front], rest⟩

theorem codeEscape_append (c : Char) (s : List Char) :
    codeEscape c ++ s = '\\' :: 'u' :: '\x7b' :: (Nat.toDigits 16 c.toNat ++ '\x7d' :: s) := by
  simp [codeEscape]

/-- No letter that stands for a character begins a code point. -/
theorem letter_append_ne_code {letter c : Char} (stands : letterEscape? letter = some c) (d : Char)
    (s t : List Char) : ['\\', letter] ++ s ≠ codeEscape d ++ t := by
  intro same
  rw [codeEscape_append] at same
  obtain ⟨rfl, -⟩ := List.cons.inj (List.cons.inj same).2
  have noLetter : letterEscape? 'u' = none := rfl
  rw [noLetter] at stands
  cases stands

/-- From a text that begins with a written form, the character and the rest can be told. -/
theorem WrittenForm.append_inj {c d : Char} {form form' s t : List Char}
    (written : WrittenForm c form) (written' : WrittenForm d form')
    (same : form ++ s = form' ++ t) : c = d ∧ s = t := by
  cases written with
  | letter stands =>
    cases written' with
    | letter stands' =>
      obtain ⟨rfl, rest⟩ := List.cons.inj (List.cons.inj same).2
      exact ⟨Option.some.inj (stands.symm.trans stands'), rest⟩
    | code => exact absurd same (letter_append_ne_code stands d s t)
    | plain noBackslash => exact absurd (List.cons.inj same).1.symm noBackslash
  | code =>
    cases written' with
    | letter stands => exact absurd same.symm (letter_append_ne_code stands c t s)
    | code =>
      rw [codeEscape_append, codeEscape_append] at same
      obtain ⟨-, marked⟩ := List.cons.inj (List.cons.inj (List.cons.inj same).2).2
      obtain ⟨digits, rest⟩ :=
        append_mark_inj (brace_not_mem_toDigits _) (brace_not_mem_toDigits _) marked
      exact ⟨Char.toNat_inj.1 (toDigits_inj digits), rest⟩
    | plain noBackslash =>
      rw [codeEscape_append] at same
      exact absurd (List.cons.inj same).1.symm noBackslash
  | plain noBackslash =>
    cases written' with
    | letter => exact absurd (List.cons.inj same).1 noBackslash
    | code =>
      rw [codeEscape_append] at same
      exact absurd (List.cons.inj same).1 noBackslash
    | plain => exact List.cons.inj same

/-- No written form begins with a quote. -/
theorem WrittenForm.append_ne_quote {c : Char} {form : List Char} (written : WrittenForm c form)
    (s t : List Char) : form ++ s ≠ '"' :: t := by
  intro same
  cases written with
  | letter => cases (List.cons.inj same).1
  | code =>
    rw [codeEscape_append] at same
    cases (List.cons.inj same).1
  | plain _ noQuote => exact noQuote (List.cons.inj same).1

/-! ### Strings -/

theorem quoteChars_cons (c : Char) (cs s : List Char) :
    quoteChars (c :: cs) ++ s = quoteChar c ++ (quoteChars cs ++ s) := by
  rw [quoteChars, List.flatMap_cons, List.append_assoc]
  rfl

/-- The first quote that is not part of a written form ends the string. -/
theorem quoteChars_append_inj {cs ds s t : List Char}
    (same : quoteChars cs ++ '"' :: s = quoteChars ds ++ '"' :: t) : cs = ds ∧ s = t := by
  induction cs generalizing ds with
  | nil =>
    cases ds with
    | nil => exact ⟨rfl, (List.cons.inj same).2⟩
    | cons d ds =>
      rw [quoteChars_cons] at same
      exact absurd same.symm ((writtenForm_quoteChar d).append_ne_quote _ _)
  | cons c cs ih =>
    cases ds with
    | nil =>
      rw [quoteChars_cons] at same
      exact absurd same ((writtenForm_quoteChar c).append_ne_quote _ _)
    | cons d ds =>
      rw [quoteChars_cons, quoteChars_cons] at same
      obtain ⟨rfl, rest⟩ := (writtenForm_quoteChar c).append_inj (writtenForm_quoteChar d) same
      obtain ⟨characters, following⟩ := ih rest
      exact ⟨by rw [characters], following⟩

end ScriptCore.Text
