/-
# Splices

A splice writes a text over a range of bytes of another text.  Every edit of this library is a
splice.  `Splice.apply` refuses a range that is inverted, runs past the end or cuts a character,
and `Splice.growth` is the change of length of one that is accepted (`byteLength_apply`).
-/
import TextPatch.Text

namespace TextPatch

/-- `newText` is to stand where the bytes from `start` up to `stop` stood. -/
structure Splice where
  start : Nat
  stop : Nat
  newText : Text
  deriving DecidableEq, Repr

/-- Why a splice is refused. -/
inductive SpliceError where
  /-- The range is inverted or runs past the end of a text of `length` bytes. -/
  | invalidRange (start stop length : Nat)
  /-- An end of the range lies inside a character. -/
  | notBoundary (offset : Nat)
  deriving DecidableEq, Repr

namespace SpliceError

/-- The wording of a refused splice. -/
def message : SpliceError → String
  | invalidRange start stop length =>
    s!"invalid byte range: [{start}, {stop}) in buffer of length {length}"
  | notBoundary offset => s!"offset {offset} is not on a UTF-8 character boundary"

end SpliceError

namespace Splice

/-- The splice that deletes a range. -/
def remove (start stop : Nat) : Splice := ⟨start, stop, []⟩

/-- The change in byte length that an accepted splice makes. -/
def growth (s : Splice) : Int := s.newText.byteLength - ((s.stop : Int) - s.start)

/-- The text after the splice. -/
def apply (s : Splice) (t : Text) : Except SpliceError Text :=
  if s.stop < s.start ∨ t.byteLength < s.stop then
    .error (.invalidRange s.start s.stop t.byteLength)
  else
    match t.splitAt? s.start with
    | none => .error (.notBoundary s.start)
    | some (before, rest) =>
      match rest.splitAt? (s.stop - s.start) with
      | none => .error (.notBoundary s.stop)
      | some (_, after) => .ok (before ++ s.newText ++ after)

/-- An accepted splice leaves what stands before and after its range, and writes between them. -/
theorem apply_eq_ok {s : Splice} {t r : Text} (h : s.apply t = .ok r) :
    ∃ before old after : Text, t = before ++ old ++ after ∧ r = before ++ s.newText ++ after ∧
      before.byteLength = s.start ∧ s.start ≤ s.stop ∧
      old.byteLength = s.stop - s.start := by
  unfold apply at h
  split at h
  · cases h
  · rename_i hrange
    split at h
    · cases h
    · rename_i before rest hcut
      split at h
      · cases h
      · rename_i old after hcut'
        obtain ⟨rfl, hb⟩ := Text.splitAt?_eq_some_iff.1 hcut
        obtain ⟨rfl, ho⟩ := Text.splitAt?_eq_some_iff.1 hcut'
        cases h
        exact ⟨before, old, after, by simp, rfl, hb, by omega, ho⟩

/-- The growth of a splice is what it adds to the length. -/
theorem byteLength_apply {s : Splice} {t r : Text} (h : s.apply t = .ok r) :
    (r.byteLength : Int) = t.byteLength + s.growth := by
  obtain ⟨before, old, after, rfl, rfl, hb, hle, ho⟩ := apply_eq_ok h
  simp only [Text.byteLength_append, growth]
  omega

end Splice

end TextPatch
