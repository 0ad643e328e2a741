/-
# Writing documents

`Json.compact` writes a document without blanks, `Json.pretty` over several lines with four spaces
a level and empty containers closed at once.  Both leave characters outside ASCII as they are,
escape quotes, backslashes and control characters, and write a `real` number with the fewest
digits that read back: plain with a point from `1e-5` up to `1e16`, with an exponent beyond.
-/
import TextPatch.Json
import TextPatch.Text
import TextPatch.Decimal.Shortest

namespace TextPatch

namespace Json

/-! ## 1. Strings -/

/-- The four hexadecimal digits of a control character. -/
def hexQuad (n : Nat) : Text :=
  [n / 4096 % 16, n / 256 % 16, n / 16 % 16, n % 16].map Nat.digitChar

/-- A character as it stands between quotes. -/
def escape (c : Char) : Text :=
  match c with
  | '"' => ['\\', '"']
  | '\\' => ['\\', '\\']
  | '\x08' => ['\\', 'b']
  | '\x0c' => ['\\', 'f']
  | '\n' => ['\\', 'n']
  | '\r' => ['\\', 'r']
  | '\t' => ['\\', 't']
  | c => if c.toNat < 0x20 then '\\' :: 'u' :: hexQuad c.toNat else [c]

/-- A string with its quotes. -/
def quote (s : String) : Text := '"' :: (s.toList.flatMap escape ++ ['"'])

/-! ## 2. Numbers -/

/-- How a positive decimal is written: all its digits and a point while the point falls no more
than four places before or sixteen behind the first digit, with an exponent otherwise. -/
def decimalText (d : Decimal.Number) : Text :=
  let digits := Nat.toDigits 10 d.digits
  let point : Int := digits.length + d.exponent
  if 0 ≤ d.exponent ∧ point ≤ 16 then
    digits ++ List.replicate d.exponent.toNat '0' ++ ['.', '0']
  else if 0 < point ∧ point ≤ 16 then
    digits.take point.toNat ++ '.' :: digits.drop point.toNat
  else if -5 < point ∧ point ≤ 0 then
    '0' :: '.' :: (List.replicate (-point).toNat '0' ++ digits)
  else
    let mantissa := match digits with
      | [] => []
      | [c] => [c]
      | c :: rest => c :: '.' :: rest
    let e := point - 1
    mantissa ++ 'e' :: ((if 0 ≤ e then ['+'] else []) ++ (toString e).toList)

/-- The text of a finite binary64 number. -/
def realText (x : Float) : Text :=
  let sign : Text := if x.toBits < 0x8000000000000000 then [] else ['-']
  sign ++ (if x == 0 then ['0', '.', '0'] else decimalText (Decimal.shortest x))

/-- The text of a number. -/
def numberText : JsonNumber → Text
  | .integer n => (toString n).toList
  | .real x => realText x

/-! ## 3. Documents -/

mutual

/-- A document without blanks. -/
def compact : Json → Text
  | .null => ['n', 'u', 'l', 'l']
  | .bool true => ['t', 'r', 'u', 'e']
  | .bool false => ['f', 'a', 'l', 's', 'e']
  | .number n => numberText n
  | .string s => quote s
  | .array [] => ['[', ']']
  | .array (v :: items) => '[' :: (compact v ++ compactItems items)
  | .object [] => ['{', '}']
  | .object ((k, v) :: members) => '{' :: (quote k ++ ':' :: (compact v ++ compactMembers members))

/-- The items behind the first one, and the closing bracket. -/
def compactItems : List Json → Text
  | [] => [']']
  | v :: items => ',' :: (compact v ++ compactItems items)

/-- The members behind the first one, and the closing brace. -/
def compactMembers : List (String × Json) → Text
  | [] => ['}']
  | (k, v) :: members => ',' :: (quote k ++ ':' :: (compact v ++ compactMembers members))

end

/-- A line break and the indentation of a level. -/
def newLine (level : Nat) : Text := '\n' :: List.replicate (4 * level) ' '

mutual

/-- A document over several lines, standing at a level of indentation. -/
def prettyAt (level : Nat) : Json → Text
  | .array [] => ['[', ']']
  | .array (v :: items) =>
    '[' :: (newLine (level + 1) ++ (prettyAt (level + 1) v ++ prettyItems level items))
  | .object [] => ['{', '}']
  | .object ((k, v) :: members) =>
    '{' :: (newLine (level + 1) ++ (quote k ++ ':' :: ' ' ::
      (prettyAt (level + 1) v ++ prettyMembers level members)))
  | .null => ['n', 'u', 'l', 'l']
  | .bool true => ['t', 'r', 'u', 'e']
  | .bool false => ['f', 'a', 'l', 's', 'e']
  | .number n => numberText n
  | .string s => quote s

/-- The items behind the first one, and the closing bracket at its level. -/
def prettyItems (level : Nat) : List Json → Text
  | [] => newLine level ++ [']']
  | v :: items =>
    ',' :: (newLine (level + 1) ++ (prettyAt (level + 1) v ++ prettyItems level items))

/-- The members behind the first one, and the closing brace at its level. -/
def prettyMembers (level : Nat) : List (String × Json) → Text
  | [] => newLine level ++ ['}']
  | (k, v) :: members =>
    ',' :: (newLine (level + 1) ++ (quote k ++ ':' :: ' ' ::
      (prettyAt (level + 1) v ++ prettyMembers level members)))

end

/-- A document over several lines, with four spaces a level. -/
def pretty (v : Json) : Text := prettyAt 0 v

end Json

end TextPatch
