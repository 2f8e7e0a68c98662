import Tasking.Text.Hidden

/-! # Quoted text

Diagnostics show a text between double quotes.  The quote and the backslash stand behind a
backslash, four control characters have a letter, and every other character that has no
picture of its own is shown by its number in base sixteen.
-/

namespace Tasking.Text

/-- The letter that stands for a control character. -/
def controlLetter? : Char → Option Char
  | '\x00' => some '0'
  | '\t' => some 't'
  | '\r' => some 'r'
  | '\n' => some 'n'
  | _ => none

/-- A character by its number. -/
def numbered (c : Char) : List Char :=
  ['\\', 'u', '\x7b'] ++ Nat.toDigits 16 c.toNat ++ ['\x7d']

/-- A character between quotes. -/
def quoteChar (c : Char) : List Char :=
  match controlLetter? c with
  | some letter => ['\\', letter]
  | none =>
    if c = '"' ∨ c = '\\' then ['\\', c]
    else if ' ' ≤ c ∧ c ≤ '~' then [c]
    else if isHidden c then numbered c
    else [c]

/-- A text between quotes. -/
def quoted (s : String) : String :=
  "\"" ++ String.ofList (s.toList.flatMap quoteChar) ++ "\""

/-- A text between quotes, in which single quotes stand behind a backslash too. -/
def quotedStrictly (s : String) : String :=
  let quote (c : Char) := if c = '\'' then ['\\', c] else quoteChar c
  "\"" ++ String.ofList (s.toList.flatMap quote) ++ "\""

end Tasking.Text
