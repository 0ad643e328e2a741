/-
# Digits

Digits have values up to fifteen, the letters from `a` to `f` in both cases included.  A number in a
base is read from the left (`numberIn`).
-/
import TextPatch.Text

namespace TextPatch.Text

/-- The value of a digit. -/
def digit? (c : Char) : Option Nat :=
  if c.isDigit then some (c.toNat - '0'.toNat)
  else if 'a' ≤ c ∧ c ≤ 'f' then some (c.toNat - 'a'.toNat + 10)
  else if 'A' ≤ c ∧ c ≤ 'F' then some (c.toNat - 'A'.toNat + 10)
  else none

/-- Whether a character is a digit in base sixteen. -/
def isHexDigit (c : Char) : Bool := (digit? c).isSome

/-- The number with a digit more at its end. -/
def appendDigit (base n : Nat) (c : Char) : Nat :=
  match digit? c with
  | some d => n * base + d
  | none => n

/-- The number that digits stand for in some base; characters that are no digits do not count. -/
def numberIn (base : Nat) (t : Text) : Nat := t.foldl (appendDigit base) 0

@[simp] theorem numberIn_nil (base : Nat) : numberIn base [] = 0 := rfl

end TextPatch.Text
