/-
# Occurrences

An occurrence is looked for with a test that is told both parts of the text around a place, the
first part backwards, and answers what it found there.  `seek?` asks the test at every start of a
character, and at the end, from some byte on; it answers the first place where the test succeeds
(`seek?_eq_none_iff`, `seek?_start_le`).
-/
import TextPatch.Text

namespace TextPatch.Text

/-- The first place at or behind byte `start` at which a test succeeds, with what it answers.  The
text has been read up to byte `offset`; `before` is what has been read, backwards. -/
def seek? (test : (before after : Text) → Option α) (start : Nat) (before : Text) (offset : Nat) :
    Text → Option (Nat × α)
  | [] => if start ≤ offset then (test before []).map fun a => (offset, a) else none
  | c :: t =>
    match if start ≤ offset then test before (c :: t) else none with
    | some a => some (offset, a)
    | none => seek? test start (c :: before) (offset + c.utf8Size) t

/-- Nothing is found behind a place that is looked at. -/
theorem seek?_start_le {test : Text → Text → Option α} {start : Nat} :
    ∀ {t before : Text} {offset n : Nat} {a : α},
      seek? test start before offset t = some (n, a) → start ≤ n ∧ offset ≤ n
  | [], before, offset, n, a, h => by
    simp only [seek?] at h
    split at h
    · obtain ⟨b, -, hb⟩ := Option.map_eq_some_iff.1 h
      obtain ⟨rfl, rfl⟩ := Prod.mk.inj hb
      exact ⟨by assumption, Nat.le_refl _⟩
    · cases h
  | c :: t, before, offset, n, a, h => by
    simp only [seek?] at h
    split at h
    · rename_i b hb
      obtain ⟨rfl, rfl⟩ := Prod.mk.inj (Option.some.inj h)
      split at hb
      · exact ⟨by assumption, Nat.le_refl _⟩
      · cases hb
    · have ih := seek?_start_le h
      exact ⟨ih.1, by omega⟩

/-- Nothing is found exactly when the test fails at every place from `start` on. -/
theorem seek?_eq_none_iff {test : Text → Text → Option α} {start : Nat} :
    ∀ {t before : Text} {offset : Nat}, seek? test start before offset t = none ↔
      ∀ u v, t = u ++ v → start ≤ offset + u.byteLength → test (u.reverse ++ before) v = none
  | [], before, offset => by
    simp only [seek?]
    constructor
    · intro h u v huv hle
      obtain ⟨rfl, rfl⟩ : u = [] ∧ v = [] := by simpa using huv.symm
      simpa [show start ≤ offset by simpa using hle] using h
    · intro h
      split
      · rename_i hle
        simpa using h [] [] rfl (by simpa using hle)
      · rfl
  | c :: t, before, offset => by
    simp only [seek?]
    constructor
    · intro h u v huv hle
      split at h
      · cases h
      · rename_i hnone
        cases u with
        | nil =>
          obtain rfl : v = c :: t := by simpa using huv.symm
          simpa [show start ≤ offset by simpa using hle] using hnone
        | cons d u =>
          obtain ⟨rfl, rfl⟩ : c = d ∧ t = u ++ v := by simpa using huv
          have := seek?_eq_none_iff.1 h u v rfl (by simpa [Nat.add_assoc] using hle)
          simpa using this
    · intro h
      have hfirst : (if start ≤ offset then test before (c :: t) else none) = none := by
        split
        · rename_i hle
          simpa using h [] (c :: t) rfl (by simpa using hle)
        · rfl
      rw [hfirst]
      refine seek?_eq_none_iff.2 fun u v huv hle => ?_
      simpa using h (c :: u) v (by simp [huv]) (by simpa [Nat.add_assoc] using hle)

/-- The byte of the first occurrence of a word at or behind byte `start`. -/
def findWord? (w : Text) (start : Nat) (t : Text) : Option Nat :=
  (seek? (fun _ after => if w.isPrefixOf after then some () else none) start [] 0 t).map Prod.fst

/-- Whether a word occurs in a text. -/
def hasWord (w t : Text) : Bool := (findWord? w 0 t).isSome

/-- What follows a word, if the text begins with it. -/
def afterWord? (w t : Text) : Option Text :=
  if w.isPrefixOf t then some (t.drop w.length) else none

end TextPatch.Text
