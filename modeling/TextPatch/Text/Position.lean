/-
# Lines and columns

A position is a line and a column, both counted from zero.  Only a line feed ends a line, so a
carriage return is an ordinary column; columns count UTF-16 units, as source maps count them.

* `Position.ofOffset t n` is the position of byte `n` of `t`;
* `Position.offset? t p` is the byte offset of the character that starts at `p`.
-/
import TextPatch.Text

namespace TextPatch

/-- A zero-based line and a zero-based column in UTF-16 units. -/
structure Position where
  line : Nat
  column : Nat
  deriving DecidableEq, Repr, Inhabited

namespace Position

/-- Where every text starts. -/
def start : Position := ⟨0, 0⟩

/-- The number of UTF-16 units of a character: two outside the basic plane. -/
def units (c : Char) : Nat := if c.toNat < 0x10000 then 1 else 2

/-- The position behind a character that stands at `p`. -/
def advance (p : Position) (c : Char) : Position :=
  if c = '\n' then ⟨p.line + 1, 0⟩ else ⟨p.line, p.column + units c⟩

/-- The position `n` bytes into a text that starts at `p`.  An offset inside a character has the
position of the next character; past the end, every byte counts as one more column. -/
def walk (p : Position) : Text → Nat → Position
  | [], n => ⟨p.line, p.column + n⟩
  | _ :: _, 0 => p
  | c :: t, n + 1 => walk (p.advance c) t (n + 1 - c.utf8Size)

/-- The position of byte `n` of a text. -/
def ofOffset (t : Text) (n : Nat) : Position := walk start t n

/-- The offset of the character at `target`, in a text that starts at position `p` and offset
`n`. -/
def seek? (target p : Position) (n : Nat) : Text → Option Nat
  | [] => none
  | c :: t =>
    if p = target then some n
    else if target.line < p.line then none
    else seek? target (p.advance c) (n + c.utf8Size) t

/-- The byte offset of the character that starts at `p`.  The end of the text is not the start of
a character, and neither is the middle of a surrogate pair. -/
def offset? (t : Text) (p : Position) : Option Nat := seek? p start 0 t

/-- The end of a text counts as a position, although no character starts there. -/
@[simp] theorem walk_nil (p : Position) (n : Nat) : walk p [] n = ⟨p.line, p.column + n⟩ := rfl

@[simp] theorem walk_zero (p : Position) (t : Text) : walk p t 0 = p := by cases t <;> rfl

end Position

end TextPatch
