/-
# Quoted texts in messages

A message quotes a text so that every character of it can be seen: quotes and backslashes are
escaped, tabs, line feeds, carriage returns and zero have escapes of one letter, and every other
character that cannot be printed, or that would attach itself to the one before it, is written as
its code point in hexadecimal between braces.
-/
import TextPatch.Unicode.Lookup

namespace TextPatch

namespace Text

/-- The characters that can be printed: no controls, no unassigned characters and no blanks but
the space. -/
def printable : Unicode.CharSet :=
  (Unicode.categoryUnion
    ["lu", "ll", "lt", "lm", "lo", "mn", "mc", "me", "nd", "nl", "no", "pc", "pd", "ps", "pe",
      "pi", "pf", "po", "sm", "sc", "sk", "so"]).union (Unicode.CharSet.singleton ' ')

/-- The characters that attach themselves to the one before them. -/
def attaching : Unicode.CharSet := Unicode.binary "graphemeextend"

/-- A character as a message shows it. -/
def showChar (c : Char) : Text :=
  match c with
  | '"' => ['\\', '"']
  | '\\' => ['\\', '\\']
  | '\n' => ['\\', 'n']
  | '\r' => ['\\', 'r']
  | '\t' => ['\\', 't']
  | '\x00' => ['\\', '0']
  | c =>
    if ' ' ≤ c ∧ c ≤ '~' then [c]
    else if printable.contains c && !attaching.contains c then [c]
    else ['\\', 'u', '\x7b'] ++ Nat.toDigits 16 c.toNat ++ ['\x7d']

end Text

/-- A string with quotes around it, as a message shows it. -/
def showQuoted (s : String) : String :=
  String.ofList ('"' :: (s.toList.flatMap Text.showChar ++ ['"']))

/-- A list of strings, as a message shows it. -/
def showQuotedList (items : List String) : String :=
  "[" ++ String.intercalate ", " (items.map showQuoted) ++ "]"

end TextPatch
