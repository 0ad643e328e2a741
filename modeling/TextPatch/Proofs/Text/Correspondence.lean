/-
# Offsets and positions correspond

Reading off the position of an offset is one scan of the text, and looking for the offset of a
position is another.  `offsets_correspond` says that they undo each other on the offsets at which a
character starts, and on no others: the end of the text has a position but is not found again, and
an offset inside a character has the position of whatever comes behind the character.

The order of offsets is that of their positions.  Both facts rest on `walk_append_add`: what a walk
comes to behind a prefix is what it comes to from the end of that prefix.
-/
import TextPatch.Proofs.Text.Positions
import Mathlib.Data.Set.Function

namespace TextPatch

/-- Whether a character of a text starts at byte `n`. -/
def Text.IsCharStart (t : Text) (n : Nat) : Prop :=
  ∃ (u : Text) (c : Char) (v : Text), t = u ++ c :: v ∧ u.byteLength = n

namespace Position

variable {p q r : Position} {t : Text} {m n k : Nat}

/-! ## 1. Positions in order -/

/-- A position stands before another one or is the same. -/
instance : LE Position where
  le p q := p.line < q.line ∨ p.line = q.line ∧ p.column ≤ q.column

theorem le_iff : p ≤ q ↔ p.line < q.line ∨ p.line = q.line ∧ p.column ≤ q.column := Iff.rfl

theorem le_refl (p : Position) : p ≤ p := Or.inr ⟨rfl, Nat.le_refl _⟩

theorem le_of_lt (h : p < q) : p ≤ q := by
  rw [lt_iff] at h
  rw [le_iff]
  omega

theorem lt_of_lt_of_le (hpq : p < q) (hqr : q ≤ r) : p < r := by
  rw [lt_iff] at hpq ⊢
  rw [le_iff] at hqr
  omega

/-! ## 2. Walks -/

/-- A walk of at least one byte goes behind the first character. -/
theorem walk_cons_of_pos (p : Position) (c : Char) (t : Text) (hn : 0 < n) :
    walk p (c :: t) n = walk (p.advance c) t (n - c.utf8Size) := by
  cases n with
  | zero => cases hn
  | succ n => rfl

/-- **A walk goes on from the end of a prefix.** -/
theorem walk_append_add (p : Position) (u v : Text) (k : Nat) :
    walk p (u ++ v) (u.byteLength + k) = walk (endOf p u) v k := by
  induction u generalizing p with
  | nil => simp
  | cons c u ih =>
    have hc := c.utf8Size_pos
    have hlen : Text.byteLength (c :: u) + k - c.utf8Size = Text.byteLength u + k := by
      rw [Text.byteLength_cons]
      omega
    have hpos : 0 < Text.byteLength (c :: u) + k := by
      rw [Text.byteLength_cons]
      omega
    rw [List.cons_append, walk_cons_of_pos p c (u ++ v) hpos, hlen, ih, endOf_cons]

/-- No walk goes back. -/
theorem le_walk (p : Position) (t : Text) (n : Nat) : p ≤ walk p t n := by
  induction t generalizing p n with
  | nil => exact Or.inr ⟨rfl, Nat.le_add_right _ _⟩
  | cons c t ih =>
    rcases Nat.eq_zero_or_pos n with rfl | hn
    · exact le_refl p
    · rw [walk_cons_of_pos p c t hn]
      exact le_of_lt (lt_of_lt_of_le (lt_advance p c) (ih _ _))

/-- A walk of at least one byte goes forward, also where the text has ended. -/
theorem lt_walk (p : Position) (t : Text) (hn : 0 < n) : p < walk p t n := by
  cases t with
  | nil => exact Or.inr ⟨rfl, Nat.lt_add_of_pos_right hn⟩
  | cons c t =>
    rw [walk_cons_of_pos p c t hn]
    exact lt_of_lt_of_le (lt_advance p c) (le_walk _ _ _)

/-- A longer walk goes at least as far. -/
theorem walk_mono (p : Position) (t : Text) (h : m ≤ n) : walk p t m ≤ walk p t n := by
  induction t generalizing p m n with
  | nil => exact Or.inr ⟨rfl, Nat.add_le_add_left h _⟩
  | cons c t ih =>
    rcases Nat.eq_zero_or_pos m with rfl | hm
    · exact le_walk p (c :: t) n
    · rw [walk_cons_of_pos p c t hm, walk_cons_of_pos p c t (Nat.lt_of_lt_of_le hm h)]
      exact ih _ (Nat.sub_le_sub_right h _)

/-! ## 3. Offsets -/

/-- All offsets behind the start of a character, up to its end, have the position behind it. -/
theorem ofOffset_inside (u : Text) (c : Char) (v : Text) (hpos : 0 < k) (hk : k ≤ c.utf8Size) :
    ofOffset (u ++ c :: v) (u.byteLength + k) = (endOf start u).advance c := by
  have hrest : k - c.utf8Size = 0 := Nat.sub_eq_zero_of_le hk
  rw [ofOffset, walk_append_add, walk_cons_of_pos _ c v hpos, hrest, walk_zero]

/-- A position has an offset exactly if a character starts there. -/
theorem offset?_eq_some_iff_isCharStart :
    offset? t p = some n ↔ t.IsCharStart n ∧ ofOffset t n = p := by
  rw [offset?_eq_some_iff]
  constructor
  · rintro ⟨u, c, v, rfl, rfl, hu⟩
    exact ⟨⟨u, c, v, rfl, rfl⟩, by rw [ofOffset_append, hu]⟩
  · rintro ⟨⟨u, c, v, rfl, rfl⟩, hp⟩
    rw [ofOffset_append] at hp
    exact ⟨u, c, v, rfl, rfl, hp⟩

/-- The offset of a character is before all later ones in the order of positions, too. -/
theorem ofOffset_lt (hm : t.IsCharStart m) (h : m < n) : ofOffset t m < ofOffset t n := by
  obtain ⟨u, c, v, rfl, rfl⟩ := hm
  obtain ⟨k, rfl⟩ := Nat.exists_eq_add_of_lt h
  rw [ofOffset_append, ofOffset, Nat.add_assoc, walk_append_add]
  exact lt_walk _ _ (Nat.succ_pos k)

/-- How the offsets of a text and their positions correspond. -/
structure Corresponds (t : Text) : Prop where
  offset?_iff : ∀ p n, offset? t p = some n ↔ t.IsCharStart n ∧ ofOffset t n = p
  /-- A position counts line feeds, and the UTF-16 units behind the last one. -/
  counted : ∀ u v : Text, t = u ++ v → ofOffset t u.byteLength = behind u
  /-- The two directions undo each other. -/
  invOn : Set.InvOn (fun p => (offset? t p).getD 0) (ofOffset t) {n | t.IsCharStart n}
    {p | (offset? t p).isSome}
  bijOn : Set.BijOn (ofOffset t) {n | t.IsCharStart n} {p | (offset? t p).isSome}
  /-- An offset inside a character has the position of the offset behind it. -/
  inside : ∀ (u : Text) (c : Char) (v : Text), t = u ++ c :: v → ∀ k, 0 < k → k < c.utf8Size →
    ofOffset t (u.byteLength + k) = ofOffset t (u.byteLength + c.utf8Size)
  monotone : ∀ m n, m ≤ n → ofOffset t m ≤ ofOffset t n
  /-- No later offset has the position of a character. -/
  strict : ∀ m n, t.IsCharStart m → m < n → ofOffset t m < ofOffset t n

/-- **Offsets and positions correspond exactly.**  In every text, a position has an offset just if a
character starts there; between the offsets and the positions of characters, the two directions are
inverse to each other.  The position of an offset inside a character is that of the offset behind the
character, and the order of offsets, whether in the text or past its end, is that of positions. -/
theorem offsets_correspond (t : Text) : Corresponds t := by
  have hleft : ∀ n, t.IsCharStart n → offset? t (ofOffset t n) = some n := fun n hn =>
    offset?_eq_some_iff_isCharStart.mpr ⟨hn, rfl⟩
  have hinv : Set.InvOn (fun p => (offset? t p).getD 0) (ofOffset t) {n | t.IsCharStart n}
      {p | (offset? t p).isSome} := by
    constructor
    · intro n hn
      simp only [hleft n hn, Option.getD_some]
    · intro p hp
      obtain ⟨n, hn⟩ := Option.isSome_iff_exists.mp hp
      simp only [hn, Option.getD_some, (offset?_eq_some_iff_isCharStart.mp hn).2]
  refine ⟨fun p n => offset?_eq_some_iff_isCharStart, ?_, hinv, hinv.bijOn ?_ ?_, ?_,
    fun m n h => walk_mono start t h, fun m n hm h => ofOffset_lt hm h⟩
  · rintro u v rfl
    rw [ofOffset_append, endOf_start]
  · intro n hn
    exact Option.isSome_iff_exists.mpr ⟨n, hleft n hn⟩
  · intro p hp
    obtain ⟨n, hn⟩ := Option.isSome_iff_exists.mp hp
    simp only [hn, Option.getD_some]
    exact (offset?_eq_some_iff_isCharStart.mp hn).1
  · rintro u c v rfl k hpos hk
    rw [ofOffset_inside u c v hpos (Nat.le_of_lt hk),
      ofOffset_inside u c v c.utf8Size_pos (Nat.le_refl _)]

/-- The second half of a surrogate pair has no offset, and the end of a text has none. -/
example : (offset? ['😀', 'x'] ⟨0, 1⟩, offset? ['😀', 'x'] ⟨0, 2⟩, offset? ['😀', 'x'] ⟨0, 3⟩) =
    (none, some 4, none) := by
  decide

end Position

end TextPatch
