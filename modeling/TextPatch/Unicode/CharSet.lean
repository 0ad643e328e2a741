/-
# Sets of characters

A set is a list of ranges of code points, in ascending order and without overlaps.  Surrogates are
no characters: no set built here contains them.

* `contains` decides membership and stops at the first range that begins behind the character;
* `union`, `complement`, `inter`, `diff` and `symmDiff` are the operations of bracket expressions;
* `ofTable` reads the written form of the tables in this folder.
-/
import TextPatch.Text.Digit
import TextPatch.Text.Field

namespace TextPatch.Unicode

/-- A set of characters, as ascending ranges of code points with both ends included. -/
structure CharSet where
  ranges : List (Nat × Nat)
  deriving Repr, DecidableEq, Inhabited

namespace CharSet

/-! ## 1. Membership -/

/-- Whether an ascending list of ranges covers `n`. -/
def covers (n : Nat) : List (Nat × Nat) → Bool
  | [] => false
  | (low, high) :: rest => if n < low then false else if n ≤ high then true else covers n rest

/-- Whether a character belongs to a set. -/
def contains (s : CharSet) (c : Char) : Bool := covers c.toNat s.ranges

/-! ## 2. Building sets -/

/-- Joins ranges that touch or overlap, in a list sorted by the lower ends. -/
def join : List (Nat × Nat) → List (Nat × Nat)
  | [] => []
  | [r] => [r]
  | (a, b) :: (c, d) :: rest =>
    if c ≤ b + 1 then join ((a, max b d) :: rest) else (a, b) :: join ((c, d) :: rest)
termination_by l => l.length

/-- The part of a range of code points below or above the surrogates. -/
def clip (r : Nat × Nat) : List (Nat × Nat) :=
  [(r.1, min r.2 0xD7FF), (max r.1 0xE000, min r.2 0x10FFFF)].filter fun (a, b) => a ≤ b

/-- The set of the characters in some ranges. -/
def ofRanges (rs : List (Nat × Nat)) : CharSet :=
  ⟨join ((rs.flatMap clip).mergeSort fun a b => a.1 ≤ b.1)⟩

/-- No characters. -/
def empty : CharSet := ⟨[]⟩

/-- All characters. -/
def full : CharSet := ⟨[(0, 0xD7FF), (0xE000, 0x10FFFF)]⟩

/-- The characters of ASCII. -/
def ascii : CharSet := ⟨[(0, 0x7F)]⟩

/-- The characters from one to another. -/
def range (a b : Char) : CharSet := ofRanges [(a.toNat, b.toNat)]

/-- The set of one character. -/
def singleton (c : Char) : CharSet := ⟨[(c.toNat, c.toNat)]⟩

/-! ## 3. Set operations -/

/-- The characters of either set. -/
def union (s t : CharSet) : CharSet := ofRanges (s.ranges ++ t.ranges)

/-- The gaps between ascending ranges, from `low` up to `top`. -/
def gaps (top low : Nat) : List (Nat × Nat) → List (Nat × Nat)
  | [] => if low ≤ top then [(low, top)] else []
  | (a, b) :: rest => if low < a then (low, a - 1) :: gaps top (b + 1) rest else gaps top (b + 1) rest

/-- The characters outside a set. -/
def complement (s : CharSet) : CharSet := ofRanges (gaps 0x10FFFF 0 s.ranges)

/-- The characters of both sets. -/
def inter (s t : CharSet) : CharSet :=
  ofRanges (s.ranges.flatMap fun (a, b) => t.ranges.filterMap fun (c, d) =>
    if max a c ≤ min b d then some (max a c, min b d) else none)

/-- The characters of the first set that are not in the second. -/
def diff (s t : CharSet) : CharSet := s.inter t.complement

/-- The characters of exactly one of the sets. -/
def symmDiff (s t : CharSet) : CharSet := (s.union t).diff (s.inter t)

/-! ## 4. Written tables -/

/-- Reads rows of `gap` or `gap.count`: so many code points behind the last range begins a range of
one, or of `count`, code points.  `last` is the first code point that has not been passed yet. -/
def readRanges : (last : Nat) → List Text → List (Nat × Nat)
  | _, [] => []
  | last, row :: rows =>
    match Text.fields '.' row with
    | [gap] =>
      let low := last + Text.numberIn 16 gap
      (low, low) :: readRanges (low + 1) rows
    | gap :: count :: _ =>
      let low := last + Text.numberIn 16 gap
      let stop := low + Text.numberIn 16 count
      (low, stop - 1) :: readRanges stop rows
    | [] => readRanges last rows

/-- The set that the lines of a table describe. -/
def ofTable (lines : List String) : CharSet :=
  ⟨readRanges 0 (lines.flatMap fun line => Text.fields ' ' line.toList)⟩

end CharSet

end TextPatch.Unicode
