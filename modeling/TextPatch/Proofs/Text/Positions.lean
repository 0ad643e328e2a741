/-
# Where a text ends, and which offset stands there

The position behind a text is found by advancing over its characters one by one (`endOf`).  That is
what both directions of the translation compute: `walk` reads off the end of a prefix
(`walk_append`), and `seek?` finds the prefix with a given end (`seek?_eq_some_iff`).  The second
needs that no two prefixes end at the same position, which holds because advancing moves strictly
forward in the order of lines and columns (`lt_advance`, `lt_endOf`).

The main statement is `offset?_eq_some_iff`: a position has an offset exactly when a character
starts there, and the offset is the length of what stands before that character.  What the position
behind a text comes to is counted in `behind`: its line feeds, and the UTF-16 units behind the last
one (`endOf_start`).
-/
import TextPatch.Text.Position

namespace TextPatch.Position

/-! ## 1. The order of positions -/

/-- One position stands before another: on an earlier line, or further left on the same one. -/
instance : LT Position where
  lt p q := p.line < q.line ∨ p.line = q.line ∧ p.column < q.column

theorem lt_iff {p q : Position} :
    p < q ↔ p.line < q.line ∨ p.line = q.line ∧ p.column < q.column := Iff.rfl

theorem lt_irrefl (p : Position) : ¬ p < p := by
  rw [lt_iff]
  omega

theorem lt_trans {p q r : Position} (hpq : p < q) (hqr : q < r) : p < r := by
  rw [lt_iff] at *
  omega

theorem units_pos (c : Char) : 0 < units c := by
  unfold units
  split <;> omega

/-- Every character moves the position strictly forward. -/
theorem lt_advance (p : Position) (c : Char) : p < p.advance c := by
  have hunits := units_pos c
  rw [lt_iff, advance]
  split
  · exact Or.inl (Nat.lt_succ_self p.line)
  · exact Or.inr ⟨rfl, Nat.lt_add_of_pos_right hunits⟩

/-! ## 2. The position behind a text -/

/-- The position behind a text that starts at `p`. -/
def endOf (p : Position) (t : Text) : Position := t.foldl advance p

@[simp] theorem endOf_nil (p : Position) : endOf p [] = p := rfl

@[simp] theorem endOf_cons (p : Position) (c : Char) (t : Text) :
    endOf p (c :: t) = endOf (p.advance c) t := rfl

/-- A text that is not empty ends strictly behind its start. -/
theorem lt_endOf : ∀ {p : Position} {t : Text}, t ≠ [] → p < endOf p t
  | _, [], h => absurd rfl h
  | p, [c], _ => lt_advance p c
  | p, c :: d :: t, _ =>
    lt_trans (lt_advance p c) (lt_endOf (p := p.advance c) (t := d :: t) (by simp))

/-- No text ends on a line before the one it starts on. -/
theorem line_le_endOf (p : Position) (t : Text) : p.line ≤ (endOf p t).line := by
  cases t with
  | nil => exact Nat.le_refl _
  | cons c t =>
    have h := lt_endOf (p := p) (t := c :: t) (by simp)
    rw [lt_iff] at h
    omega

/-- The position of the byte behind a prefix is where the prefix ends. -/
theorem walk_append : ∀ (p : Position) (u v : Text),
    walk p (u ++ v) u.byteLength = endOf p u
  | p, [], v => by simp
  | p, c :: u, v => by
    have hc := c.utf8Size_pos
    have hlen : Text.byteLength (c :: u) = (c.utf8Size + Text.byteLength u - 1) + 1 := by
      rw [Text.byteLength_cons]
      omega
    have hrest : c.utf8Size + Text.byteLength u - 1 + 1 - c.utf8Size = Text.byteLength u := by
      omega
    rw [hlen, List.cons_append, walk, hrest, walk_append (p.advance c) u v, endOf_cons]

/-- `walk_append` for texts from their start. -/
theorem ofOffset_append (u v : Text) : ofOffset (u ++ v) u.byteLength = endOf start u :=
  walk_append start u v

/-! ## 3. The offset at a position -/

/-- A search answers the place of the character at the target, if there is one, and no other. -/
theorem seek?_eq_some_iff {target : Position} : ∀ {t : Text} {p : Position} {n k : Nat},
    seek? target p n t = some k ↔
      ∃ (u : Text) (c : Char) (v : Text),
        t = u ++ c :: v ∧ k = n + u.byteLength ∧ endOf p u = target
  | [], p, n, k => by simp [seek?]
  | d :: t, p, n, k => by
    rw [seek?]
    by_cases hp : p = target
    · -- the target is here; behind it, every prefix ends further on
      rw [if_pos hp]
      constructor
      · intro h
        cases h
        exact ⟨[], d, t, rfl, rfl, hp⟩
      · rintro ⟨u, c, v, -, rfl, hu⟩
        cases u with
        | nil => rfl
        | cons e u =>
          have hlt := lt_endOf (p := p) (t := e :: u) (by simp)
          rw [hu, ← hp] at hlt
          exact absurd hlt (lt_irrefl p)
    · rw [if_neg hp]
      have hcons : (∃ (u : Text) (c : Char) (v : Text),
            d :: t = u ++ c :: v ∧ k = n + u.byteLength ∧ endOf p u = target) ↔
          ∃ (u : Text) (c : Char) (v : Text),
            t = u ++ c :: v ∧ k = n + d.utf8Size + u.byteLength ∧
              endOf (p.advance d) u = target := by
        constructor
        · rintro ⟨u, c, v, ht, hk, hu⟩
          cases u with
          | nil => exact absurd hu hp
          | cons e u =>
            obtain ⟨rfl, rfl⟩ : d = e ∧ t = u ++ c :: v := by simpa using ht
            exact ⟨u, c, v, rfl, by rw [hk, Text.byteLength_cons]; omega, hu⟩
        · rintro ⟨u, c, v, rfl, hk, hu⟩
          exact ⟨d :: u, c, v, rfl, by rw [hk, Text.byteLength_cons]; omega, hu⟩
      rw [hcons]
      by_cases hline : target.line < p.line
      · rw [if_pos hline]
        constructor
        · intro h
          cases h
        · rintro ⟨u, c, v, -, -, hu⟩
          have h1 := line_le_endOf (p.advance d) u
          have h2 := lt_advance p d
          rw [lt_iff] at h2
          rw [hu] at h1
          omega
      · rw [if_neg hline]
        exact seek?_eq_some_iff

/-- **A position has an offset exactly when a character starts there.**  The offset is the length
of what stands before the character. -/
theorem offset?_eq_some_iff {t : Text} {p : Position} {n : Nat} :
    offset? t p = some n ↔
      ∃ (u : Text) (c : Char) (v : Text),
        t = u ++ c :: v ∧ u.byteLength = n ∧ endOf start u = p := by
  rw [offset?, seek?_eq_some_iff]
  constructor
  · rintro ⟨u, c, v, ht, hn, hu⟩
    exact ⟨u, c, v, ht, by omega, hu⟩
  · rintro ⟨u, c, v, ht, hn, hu⟩
    exact ⟨u, c, v, ht, by omega, hu⟩

/-- The offset of a position has that position. -/
theorem ofOffset_of_offset? {t : Text} {p : Position} {n : Nat} (h : offset? t p = some n) :
    ofOffset t n = p := by
  obtain ⟨u, c, v, rfl, rfl, hu⟩ := offset?_eq_some_iff.mp h
  rw [ofOffset_append, hu]

/-! ## 4. Lines and columns -/

/-- The UTF-16 units of a text. -/
def width : Text → Nat
  | [] => 0
  | c :: t => units c + width t

/-- The position behind a text as it is counted: a line for every line feed, and a column for every
UTF-16 unit behind the last of them. -/
def behind (t : Text) : Position :=
  ⟨t.count '\n', width (t.reverse.takeWhile (· != '\n'))⟩

theorem behind_append_singleton (t : Text) (c : Char) :
    behind (t ++ [c]) = (behind t).advance c := by
  unfold behind advance
  rw [List.count_append, List.reverse_append, List.reverse_singleton, List.singleton_append,
    List.takeWhile_cons]
  by_cases hc : c = '\n'
  · simp [hc, width]
  · simp [hc, width, Nat.add_comm]

/-- **A text ends at the line and the column that are counted for it.** -/
theorem endOf_start (t : Text) : endOf start t = behind t := by
  have hreverse : ∀ r : Text, endOf start r.reverse = behind r.reverse := by
    intro r
    induction r with
    | nil => rfl
    | cons c r ih =>
      rw [List.reverse_cons, behind_append_singleton, ← ih]
      simp [endOf, List.foldl_append]
  simpa using hreverse t.reverse

end TextPatch.Position
