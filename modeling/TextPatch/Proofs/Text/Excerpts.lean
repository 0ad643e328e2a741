/-
# Excerpts of texts

An excerpt shows the text around a byte.  It may not begin or end inside a character, so it is cut
at the last boundary at or before its first byte and at the first one at or behind its last byte.
Here both cuts are said without the scans that find them: a cut is one among all ways in which the
text is put together from two parts (`CutBefore`, `CutBehind`).

`isExcerpt_excerpt` says that every excerpt is what stands between the two, wherever in the text or
behind its end the byte is.
-/
import TextPatch.Inspect
import TextPatch.Proofs.Text.Cuts

namespace TextPatch

namespace Text

/-- A text is cut at the last boundary at or before byte `n`. -/
structure CutBefore (t : Text) (n : Nat) (u v : Text) : Prop where
  eq_append : t = u ++ v
  le : u.byteLength ≤ n
  last : ∀ u' v' : Text, t = u' ++ v' → u'.byteLength ≤ n → u'.byteLength ≤ u.byteLength

/-- A text is cut at the first boundary at or behind byte `n`, or at its end if there is none. -/
structure CutBehind (t : Text) (n : Nat) (u v : Text) : Prop where
  eq_append : t = u ++ v
  reaches : n ≤ u.byteLength ∨ v = []
  first : ∀ u' v' : Text, t = u' ++ v' → n ≤ u'.byteLength → u.byteLength ≤ u'.byteLength

theorem exists_cutBefore (t : Text) : ∀ n,
    ∃ u v, t.CutBefore n u v ∧ u.byteLength = t.boundaryBefore n := by
  induction t with
  | nil => exact fun n => ⟨[], [], ⟨rfl, Nat.zero_le n, by simp⟩, rfl⟩
  | cons c t ih =>
    intro n
    unfold boundaryBefore
    split
    · rename_i hfits
      obtain ⟨u, v, hcut, hlength⟩ := ih (n - c.utf8Size)
      have hle := hcut.le
      refine ⟨c :: u, v, ⟨by rw [hcut.eq_append, List.cons_append], ?_, ?_⟩, by simp [hlength]⟩
      · rw [byteLength_cons]
        omega
      · intro u' v' ht hn
        cases u' with
        | nil => exact Nat.zero_le _
        | cons d u' =>
          obtain ⟨rfl, htail⟩ := List.cons.inj ht
          rw [byteLength_cons] at hn
          have hlast := hcut.last u' v' htail (by omega)
          simp only [byteLength_cons]
          omega
    · rename_i hfits
      refine ⟨[], c :: t, ⟨rfl, Nat.zero_le n, fun u' v' ht hn => ?_⟩, rfl⟩
      cases u' with
      | nil => exact Nat.zero_le _
      | cons d u' =>
        obtain ⟨rfl, -⟩ := List.cons.inj ht
        rw [byteLength_cons] at hn
        omega

theorem exists_cutBehind (t : Text) : ∀ n,
    ∃ u v, t.CutBehind n u v ∧ u.byteLength = t.boundaryBehind n := by
  induction t with
  | nil => exact fun n => ⟨[], [], ⟨rfl, Or.inr rfl, fun _ _ _ _ => Nat.zero_le _⟩, rfl⟩
  | cons c t ih =>
    intro n
    unfold boundaryBehind
    split
    · rename_i hzero
      exact ⟨[], c :: t, ⟨rfl, Or.inl (Nat.le_of_eq hzero), fun _ _ _ _ => Nat.zero_le _⟩, rfl⟩
    · rename_i hpos
      obtain ⟨u, v, hcut, hlength⟩ := ih (n - c.utf8Size)
      refine ⟨c :: u, v, ⟨by rw [hcut.eq_append, List.cons_append], ?_, ?_⟩, by simp [hlength]⟩
      · refine hcut.reaches.imp_left fun hle => ?_
        rw [byteLength_cons]
        omega
      · intro u' v' ht hn
        cases u' with
        | nil => exact absurd (Nat.le_zero.mp hn) hpos
        | cons d u' =>
          obtain ⟨rfl, htail⟩ := List.cons.inj ht
          rw [byteLength_cons] at hn
          have hfirst := hcut.first u' v' htail (by omega)
          simp only [byteLength_cons]
          omega

end Text

namespace Inspect

open Text

/-- The text around byte `n` as it is shown: from the boundary at or before 40 bytes ahead of it, or
from the start, to the one at or behind 40 bytes past it, or to the end, with line feeds as `\n`. -/
def IsExcerpt (t : Text) (n : Nat) (shown : Text) : Prop :=
  ∃ a part c, t.CutBefore (n - 40) a (part ++ c) ∧ t.CutBehind (n + 40) (a ++ part) c ∧
    shown = part.flatMap fun c => if c = '\n' then ['\\', 'n'] else [c]

/-- **Excerpts are cut between characters, as closely as can be.** -/
theorem isExcerpt_excerpt (t : Text) (n : Nat) : IsExcerpt t n (excerpt t n) := by
  obtain ⟨a, rest, hbefore, ha⟩ := exists_cutBefore t (n - 40)
  obtain ⟨u, c, hbehind, hu⟩ := exists_cutBehind t (n + 40)
  have hle : a.byteLength ≤ u.byteLength := by
    have hstart := hbefore.le
    rcases hbehind.reaches with hreaches | rfl
    · omega
    · have htotal := congrArg byteLength (hbefore.eq_append.symm.trans hbehind.eq_append)
      simp only [byteLength_append, byteLength_nil] at htotal
      omega
  obtain ⟨part, rfl, rfl⟩ :=
    exists_of_append_eq (hbefore.eq_append.symm.trans hbehind.eq_append) hle
  have hpart : t.between a.byteLength (a ++ part).byteLength = part := by
    rw [hbehind.eq_append, byteLength_append, between_append]
  refine ⟨a, part, c, hbefore, hbehind, ?_⟩
  rw [excerpt, radius, ← ha, ← hu, hpart]

end Inspect

end TextPatch
