/-
# Versions

A version is three numbers, and may have a pre-release behind a hyphen and a build behind a plus
sign; both are identifiers of letters, digits and hyphens between dots.  Versions are ordered by
their numbers, then by the pre-release (none is above any), then by the build (none is below any).

Strings that are no versions come below all versions and are ordered as strings, so that any two
strings can be compared: `VersionKey`.
-/
import TextPatch.Text.Digit
import TextPatch.Text.Field

namespace TextPatch

/-- A version. -/
structure Version where
  major : Nat
  minor : Nat
  patch : Nat
  /-- The identifiers of the pre-release. -/
  pre : List String
  /-- The identifiers of the build. -/
  build : List String
  deriving DecidableEq, Repr

namespace Version

/-! ## 1. Order -/

/-- Whether all characters of an identifier are digits. -/
def isNumeric (s : String) : Bool := s.toList.all Char.isDigit

/-- Compares lists by their first difference; a longer list is above its beginnings. -/
def compareLists (cmp : String → String → Ordering) : List String → List String → Ordering
  | [], [] => .eq
  | [], _ :: _ => .lt
  | _ :: _, [] => .gt
  | a :: as, b :: bs => (cmp a b).then (compareLists cmp as bs)

/-- Compares identifiers: numeric ones are below the others and are compared by `numeric`. -/
def compareIdentifiers (numeric : String → String → Ordering) (a b : String) : Ordering :=
  match isNumeric a, isNumeric b with
  | false, true => .gt
  | true, false => .lt
  | false, false => compare a b
  | true, true => numeric a b

/-- Compares digits without leading zeros by their value. -/
def compareDigits (a b : String) : Ordering :=
  (compare a.length b.length).then (compare a b)

/-- A string of digits without leading zeros. -/
def withoutZeros (s : String) : String := String.ofList (s.toList.dropWhile (· == '0'))

/-- Compares digits by their value, then by the number of leading zeros. -/
def comparePadded (a b : String) : Ordering :=
  (compareDigits (withoutZeros a) (withoutZeros b)).then (compare a.length b.length)

/-- Compares pre-releases. -/
def comparePre (a b : List String) : Ordering :=
  match a, b with
  | [], [] => .eq
  | [], _ :: _ => .gt
  | _ :: _, [] => .lt
  | a, b => compareLists (compareIdentifiers compareDigits) a b

/-- Compares builds. -/
def compareBuild (a b : List String) : Ordering :=
  compareLists (compareIdentifiers comparePadded) a b

/-- Compares versions. -/
def compareTo (v w : Version) : Ordering :=
  (compare v.major w.major).then ((compare v.minor w.minor).then ((compare v.patch w.patch).then
    ((comparePre v.pre w.pre).then (compareBuild v.build w.build))))

/-! ## 2. Reading -/

/-- A number below `2 ^ 64` without leading zeros, and what follows it. -/
def number? (t : Text) : Option (Nat × Text) :=
  let digits := t.takeWhile Char.isDigit
  let n := Text.numberIn 10 digits
  if digits.isEmpty || (digits.head? == some '0' && digits.length != 1) || UInt64.size ≤ n then none
  else some (n, t.drop digits.length)

/-- Whether a character may stand in an identifier. -/
def isIdentifierChar (c : Char) : Bool := c.isAlphanum || c == '-'

/-- The identifiers at the start of a text, each of which must pass a check, and what follows
them. -/
def identifiers? (check : Text → Bool) (t : Text) : Option (List String × Text) :=
  let run := t.takeWhile fun c => isIdentifierChar c || c == '.'
  let ids := Text.fields '.' run
  if ids.all fun i => !i.isEmpty && check i then
    some (ids.map String.ofList, t.drop run.length)
  else none

/-- Whether an identifier is no number with leading zeros. -/
def hasNoPadding (i : Text) : Bool :=
  !(i.all Char.isDigit && i.head? == some '0' && i.length != 1)

/-- What stands behind a character at the start of a text. -/
def behind? (c : Char) : Text → Option Text
  | d :: t => if c = d then some t else none
  | [] => none

/-- The version that a string is. -/
def ofString? (s : String) : Option Version := do
  let (major, t) ← number? s.toList
  let (minor, t) ← number? (← behind? '.' t)
  let (patch, t) ← number? (← behind? '.' t)
  let (pre, t) ← match behind? '-' t with
    | some t => identifiers? hasNoPadding t
    | none => some ([], t)
  let (build, t) ← match behind? '+' t with
    | some t => identifiers? (fun _ => true) t
    | none => some ([], t)
  if t.isEmpty then some ⟨major, minor, patch, pre, build⟩ else none

end Version

/-- What a string is ordered by. -/
inductive VersionKey where
  | raw (s : String)
  | version (v : Version)
  deriving DecidableEq, Repr

namespace VersionKey

/-- The key of a string. -/
def ofString (s : String) : VersionKey :=
  match Version.ofString? s with
  | some v => .version v
  | none => .raw s

/-- Compares keys. -/
def compareTo : VersionKey → VersionKey → Ordering
  | raw s, raw t => compare s t
  | raw _, version _ => .lt
  | version _, raw _ => .gt
  | version v, version w => v.compareTo w

end VersionKey

end TextPatch
