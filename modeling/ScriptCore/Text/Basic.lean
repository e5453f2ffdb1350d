import ScriptCore.Text.Extending

/-!
What is done with strings as texts: they are put in alphabetical order, trimmed and quoted.

The alphabetical order is that of the code points. A blank is a character with the White_Space
property of Unicode. Quoted text is a string between double quotes in which every character that
could be misread is written as an escape: the quote and the backslash take a backslash, four control
characters have a letter or digit of their own, and each character without a visible form, or one
that would attach to the character before it, is written as its code point in hexadecimal.
-/

namespace ScriptCore.Text

/-! ### Alphabetical order -/

/-- Adds a string before the first later one. -/
def insertSorted (s : String) : List String → List String
  | [] => [s]
  | first :: rest => if s < first then s :: first :: rest else first :: insertSorted s rest

/-- Strings in alphabetical order. -/
def sorted (strings : List String) : List String :=
  strings.foldl (fun done s => insertSorted s done) []

/-! ### Blanks -/

/-- Tabs and line ends, the spaces of all widths, and the line and paragraph separators. -/
def isBlank (c : Char) : Bool :=
  let n := c.toNat
  decide (0x9 ≤ n ∧ n ≤ 0xd) || n == 0x20 || n == 0x85 || n == 0xa0 || n == 0x1680 ||
    decide (0x2000 ≤ n ∧ n ≤ 0x200a) || n == 0x2028 || n == 0x2029 || n == 0x202f ||
    n == 0x205f || n == 0x3000

/-- A text without the blanks at its two ends. -/
def trimChars (cs : List Char) : List Char :=
  ((cs.dropWhile isBlank).reverse.dropWhile isBlank).reverse

/-- A string without the blanks at its two ends. -/
def trim (s : String) : String := String.ofList (trimChars s.toList)

/-! ### Quoted text -/

/-- A code point in braces, in lower-case hexadecimal without padding. -/
def codeEscape (c : Char) : List Char :=
  '\\' :: 'u' :: '\x7b' :: Nat.toDigits 16 c.toNat ++ ['\x7d']

/-- The written form of one character between quotes. -/
def quoteChar (c : Char) : List Char :=
  if c = '\x00' then ['\\', '0']
  else if c = '\t' then ['\\', 't']
  else if c = '\r' then ['\\', 'r']
  else if c = '\n' then ['\\', 'n']
  else if c = '\\' then ['\\', '\\']
  else if c = '"' then ['\\', '"']
  else if isExtending c || !isPrintable c then codeEscape c
  else [c]

/-- The characters of a string in their written form, one after another. -/
def quoteChars (cs : List Char) : List Char := cs.flatMap quoteChar

/-- A string between double quotes. -/
def quote (s : String) : String := String.ofList ('"' :: quoteChars s.toList ++ ['"'])

end ScriptCore.Text
