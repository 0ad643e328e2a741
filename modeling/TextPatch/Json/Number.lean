/-
# Reading numbers

A number of a document is read in three steps: its digits are collected into a significand below
`2 ^ 64` and a power of ten, digits that no longer fit are dropped and only counted, and the pair
is turned into a value.  An integer that fits is kept exactly.  Every other number becomes a binary
one by a single multiplication or division of the significand by a power of ten, which is not
always the nearest one; a value beyond the binary range is refused.
-/
import TextPatch.Json
import TextPatch.Text

namespace TextPatch

namespace Json.Read

/-- Why a document cannot be read. -/
inductive Fault where
  /-- A character stands where no document can continue with it, or a number is out of range. -/
  | malformed
  /-- The text ends inside the document. -/
  | truncated
  /-- The text could not be delivered to its end. -/
  | broken
  deriving DecidableEq, Repr

/-- What happens to a reader that needs more than the text has. -/
def ended (broken : Bool) : Fault := if broken then .broken else .truncated

/-- The next character, if there is one.  Behind the last deliverable character of a broken text
nobody can tell. -/
def peek (broken : Bool) : Text → Except Fault (Option Char)
  | c :: _ => .ok (some c)
  | [] => if broken then .error .broken else .ok none

/-- The value of a decimal digit. -/
def digitValue (c : Char) : Nat := c.toNat - '0'.toNat

/-- The digits at the start of a text, and what follows them. -/
def digits (t : Text) : Text × Text := (t.takeWhile Char.isDigit, t.dropWhile Char.isDigit)

/-- Appends digits to a significand as long as it stays below a limit; returns those left over. -/
def extend (limit : Nat) : Nat → Text → Nat × Text
  | s, [] => (s, [])
  | s, d :: ds =>
    if s * 10 + digitValue d ≤ limit then extend limit (s * 10 + digitValue d) ds else (s, d :: ds)

/-- The largest significand. -/
def largestSignificand : Nat := 0xFFFFFFFFFFFFFFFF

/-- The largest exponent that is spelled out. -/
def largestExponent : Nat := 0x7FFFFFFF

/-- A power of ten. -/
def powerOfTen (n : Nat) : Float := Float.ofScientific 1 false n

/-- Divides by powers of ten until the exponent is small enough for one more division. -/
def lower : Nat → Float → Int → Float
  | 0, x, _ => x
  | fuel + 1, x, e =>
    if -308 ≤ e then x / powerOfTen (-e).toNat
    else if x == 0 then x
    else lower fuel (x / powerOfTen 308) (e + 308)

/-- The binary number for `s · 10 ^ e`, or `none` beyond the range. -/
def magnitude? (s : Nat) (e : Int) : Option Float :=
  let x := s.toUInt64.toFloat
  if e < 0 then some (lower 4 x e)
  else if e ≤ 308 then
    let y := x * powerOfTen e.toNat
    if y.isInf then none else some y
  else if s = 0 then some x else none

/-- The number with a sign, a significand and an exponent. -/
def signed (negative : Bool) (s : Nat) (e : Int) : Except Fault JsonNumber :=
  match magnitude? s e with
  | some x => .ok (.real (if negative then -x else x))
  | none => .error .malformed

/-- The number whose digits so far are `s · 10 ^ e`, read from behind the `e`. -/
def exponentPart (broken negative : Bool) (s : Nat) (e : Int) (t : Text) :
    Except Fault (JsonNumber × Text) := do
  let sign ← peek broken t
  let down := sign == some '-'
  let t := if down || sign == some '+' then t.drop 1 else t
  match t with
  | [] => .error (ended broken)
  | c :: _ =>
    if !c.isDigit then .error .malformed
    else
      let (ds, rest) := digits t
      let _ ← peek broken rest
      match extend largestExponent 0 ds with
      | (n, []) =>
        let x ← signed negative s (if down then e - n else e + n)
        return (x, rest)
      | _ =>
        if s ≠ 0 ∧ !down then .error .malformed
        else return (.real (if negative then -0.0 else 0.0), rest)

/-- The number whose digits before the point are `s · 10 ^ e`, read from behind the point. -/
def fractionPart (broken negative : Bool) (s e : Nat) (t : Text) :
    Except Fault (JsonNumber × Text) := do
  let (ds, rest) := digits t
  let next ← peek broken rest
  if ds.isEmpty then .error (if next.isSome then .malformed else .truncated)
  else
    let (s, extra) := extend largestSignificand s ds
    let e : Int := e - (ds.length - extra.length : Nat)
    if next == some 'e' || next == some 'E' then exponentPart broken negative s e (rest.drop 1)
    else
      let x ← signed negative s e
      return (x, rest)

/-- The integer with a sign and a magnitude; a negative zero and what does not fit are real. -/
def wholeNumber (negative : Bool) (s : Nat) : JsonNumber :=
  if negative then
    if 0 < s ∧ s ≤ 0x8000000000000000 then .integer (-s) else .real (-s.toUInt64.toFloat)
  else .integer s

/-- A number, read from behind its sign. -/
def number (broken negative : Bool) (t : Text) : Except Fault (JsonNumber × Text) := do
  match t with
  | [] => .error (ended broken)
  | c :: tail =>
    if !c.isDigit then .error .malformed
    else
      let (ds, rest) := if c = '0' then (['0'], tail) else digits t
      let next ← peek broken rest
      let (s, extra) := extend largestSignificand 0 ds
      if c = '0' && next.any Char.isDigit then .error .malformed
      else if next == some '.' then fractionPart broken negative s extra.length (rest.drop 1)
      else if next == some 'e' || next == some 'E' then
        exponentPart broken negative s extra.length (rest.drop 1)
      else if extra.isEmpty then return (wholeNumber negative s, rest)
      else
        let x ← signed negative s extra.length
        return (x, rest)

end Json.Read

end TextPatch
