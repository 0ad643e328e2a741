/-
# Texts, byte offsets and characters

A text is a list of characters, and every offset and length that leaves this library counts the
bytes of the text in UTF-8.  This file holds the measure and the one operation that everything
else cuts texts with:

* `byteLength` adds over `++` (`byteLength_append`);
* `splitAt? t n` cuts `t` at byte `n`, and answers `none` when `n` lies inside a character or
  past the end; whatever it answers is a cut of `t` (`splitAt?_eq_some_iff`).
-/

namespace TextPatch

/-- A text, character by character. -/
abbrev Text := List Char

namespace Text

/-! ## 1. Length in bytes -/

/-- The number of bytes of a text in UTF-8. -/
def byteLength : Text → Nat
  | [] => 0
  | c :: t => c.utf8Size + byteLength t

@[simp] theorem byteLength_nil : byteLength [] = 0 := rfl

@[simp] theorem byteLength_cons (c : Char) (t : Text) :
    byteLength (c :: t) = c.utf8Size + byteLength t := rfl

@[simp] theorem byteLength_append : ∀ s t : Text,
    byteLength (s ++ t) = byteLength s + byteLength t
  | [], t => by simp
  | c :: s, t => by simp [byteLength_append s t]; omega

/-- Only the empty text has no bytes. -/
theorem byteLength_eq_zero : ∀ {t : Text}, byteLength t = 0 ↔ t = []
  | [] => by simp
  | c :: t => by have := c.utf8Size_pos; simp; omega

/-! ## 2. Cutting at a byte offset -/

/-- The two parts of a text around byte `n`, if `n` is the start or the end of a character. -/
def splitAt? : Text → Nat → Option (Text × Text)
  | t, 0 => some ([], t)
  | [], _ + 1 => none
  | c :: t, n + 1 =>
    if c.utf8Size ≤ n + 1 then
      (splitAt? t (n + 1 - c.utf8Size)).map fun (before, after) => (c :: before, after)
    else none

/-- Whether byte `n` of a text is the start of a character or the end of the text. -/
def isBoundary (t : Text) (n : Nat) : Bool := (splitAt? t n).isSome

@[simp] theorem splitAt?_zero (t : Text) : splitAt? t 0 = some ([], t) := by
  cases t <;> rfl

/-- A cut is found exactly when the parts make up the text and the first has `n` bytes. -/
theorem splitAt?_eq_some_iff {t before after : Text} {n : Nat} :
    splitAt? t n = some (before, after) ↔ t = before ++ after ∧ byteLength before = n := by
  induction t generalizing n before with
  | nil =>
    cases n with
    | zero => cases before <;> simp [eq_comm]
    | succ n => cases before <;> simp [splitAt?]
  | cons c t ih =>
    have hc := c.utf8Size_pos
    cases n with
    | zero =>
      cases before with
      | nil => simp [eq_comm]
      | cons d before =>
        have := d.utf8Size_pos
        simp only [splitAt?_zero, Option.some.injEq, Prod.mk.injEq, reduceCtorEq, false_and,
          byteLength_cons, false_iff, not_and]
        omega
    | succ n =>
      cases before with
      | nil => simp [splitAt?]
      | cons d before =>
        simp only [splitAt?]
        split
        · rename_i h
          have key : splitAt? t (n + 1 - c.utf8Size) = some (before, after) ↔
              t = before ++ after ∧ byteLength before = n + 1 - c.utf8Size := ih
          constructor
          · intro heq
            obtain ⟨⟨b, a⟩, hb, hab⟩ := Option.map_eq_some_iff.1 heq
            obtain ⟨⟨rfl, rfl⟩, rfl⟩ : (c = d ∧ b = before) ∧ a = after := by simpa using hab
            obtain ⟨ht, hlen⟩ := key.1 hb
            exact ⟨by simp [ht], by simp [hlen]; omega⟩
          · rintro ⟨heq, hlen⟩
            obtain ⟨rfl, rfl⟩ : c = d ∧ t = before ++ after := by simpa using heq
            have : splitAt? (before ++ after) (n + 1 - c.utf8Size) = some (before, after) :=
              key.2 ⟨rfl, by simp at hlen; omega⟩
            simp [this]
        · rename_i h
          simp only [reduceCtorEq, false_iff, not_and, List.cons_append, List.cons.injEq,
            byteLength_cons]
          rintro ⟨rfl, -⟩
          omega

/-- The last boundary at or before byte `n`. -/
def boundaryBefore : Text → Nat → Nat
  | [], _ => 0
  | c :: t, n => if c.utf8Size ≤ n then c.utf8Size + boundaryBefore t (n - c.utf8Size) else 0

/-- The first boundary at or behind byte `n`; the end of the text if there is none. -/
def boundaryBehind : Text → Nat → Nat
  | [], _ => 0
  | c :: t, n => if n = 0 then 0 else c.utf8Size + boundaryBehind t (n - c.utf8Size)

/-- The characters of a text that begin at or behind byte `start` and before byte `stop`. -/
def between (t : Text) (start stop : Nat) : Text :=
  match t with
  | [] => []
  | c :: t =>
    if stop = 0 then []
    else (if start = 0 then [c] else []) ++ between t (start - c.utf8Size) (stop - c.utf8Size)

/-- The first part of a cut has the asked number of bytes. -/
theorem splitAt?_append (before after : Text) :
    splitAt? (before ++ after) before.byteLength = some (before, after) :=
  splitAt?_eq_some_iff.2 ⟨rfl, rfl⟩

end Text

end TextPatch
