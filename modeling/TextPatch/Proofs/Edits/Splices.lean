/-
# Splices of bytes

What a splice does to the bytes of a text, and when it is refused.

* `Splice.apply_eq_ok_iff`: a splice whose range is in order, inside the text and cuts no character
  writes its text over the range, and the bytes before and behind it stay.
* `Splice.apply_eq_error_iff`: any other splice is refused, for one reason.

A rule computes where it splices, so the ends need not be offsets at all: a `Change` is a splice
with its ends as they have been computed.  One that is made adds as much to the shift as to the
length of the text (`Change.Made.byteLength_eq`); one that is refused misfits
(`Change.refused_iff`).
-/
import TextPatch.Proofs.Edits.Errors
import TextPatch.Proofs.Edits.Windows
import TextPatch.Proofs.Text.Bytes

namespace TextPatch

/-! ## 1. One splice -/

namespace Splice

variable {s : Splice} {t r : Text} {cause : SpliceError}

/-- A splice can be made: its range is in order, does not run past the end, and starts and stops
where the bytes can be cut. -/
structure Fits (s : Splice) (t : Text) : Prop where
  ordered : s.start ≤ s.stop
  inside : s.stop ≤ t.bytes.size
  start_isCut : Text.IsCut t.bytes s.start
  stop_isCut : Text.IsCut t.bytes s.stop

/-- Why a splice cannot be made. -/
inductive Refused (s : Splice) (t : Text) : SpliceError → Prop
  | range (h : s.stop < s.start ∨ t.bytes.size < s.stop) :
      Refused s t (.invalidRange s.start s.stop t.bytes.size)
  | start (ordered : s.start ≤ s.stop) (inside : s.stop ≤ t.bytes.size)
      (h : ¬ Text.IsCut t.bytes s.start) : Refused s t (.notBoundary s.start)
  | stop (ordered : s.start ≤ s.stop) (inside : s.stop ≤ t.bytes.size)
      (start_isCut : Text.IsCut t.bytes s.start) (h : ¬ Text.IsCut t.bytes s.stop) :
      Refused s t (.notBoundary s.stop)

/-- The bytes before and behind the range of a splice stay, and its text stands between them. -/
def Rewrites (s : Splice) (t r : Text) : Prop :=
  r.bytes = t.bytes.extract 0 s.start ++ s.newText.bytes ++ t.bytes.extract s.stop t.bytes.size

theorem rewrites_cut (before old after newText : Text) :
    (⟨before.byteLength, before.byteLength + old.byteLength, newText⟩ : Splice).Rewrites
      (before ++ old ++ after) (before ++ newText ++ after) := by
  have hbefore : (before ++ old ++ after).bytes.extract 0 before.byteLength = before.bytes := by
    rw [List.append_assoc, Text.bytes_append]
    exact ByteArray.extract_append_eq_left (Text.size_bytes before).symm
  have hafter : (before ++ old ++ after).bytes.extract (before.byteLength + old.byteLength)
      (before ++ old ++ after).bytes.size = after.bytes := by
    rw [Text.bytes_append (before ++ old)]
    refine ByteArray.extract_append_eq_right ?_ ByteArray.size_append
    rw [Text.size_bytes, Text.byteLength_append]
  unfold Rewrites
  rw [hbefore, hafter, Text.bytes_append, Text.bytes_append]

theorem Fits.apply_eq (h : s.Fits t) : ∃ r, s.apply t = .ok r ∧ s.Rewrites t r := by
  obtain ⟨start, stop, newText⟩ := s
  obtain ⟨hordered, -, hstart, hstop⟩ := h
  obtain ⟨before, rest, rfl, rfl⟩ := Text.isCut_bytes_iff.mp hstart
  obtain ⟨upto, after, ht, rfl⟩ := Text.isCut_bytes_iff.mp hstop
  obtain ⟨old, rfl, rfl⟩ := Text.exists_of_append_eq ht hordered
  rw [Text.byteLength_append, ← List.append_assoc]
  exact ⟨before ++ newText ++ after, apply_cut before old after newText,
    rewrites_cut before old after newText⟩

/-- Where the bytes cannot be cut, the text cannot. -/
theorem splitAt?_of_not_isCut {n : Nat} (h : ¬ Text.IsCut t.bytes n) :
    Text.splitAt? t n = none := by
  rw [Option.eq_none_iff_forall_ne_some]
  rintro ⟨before, after⟩ hcut
  exact h (Text.isCut_bytes_iff.mpr ⟨before, after, Text.splitAt?_eq_some_iff.mp hcut⟩)

theorem Refused.apply_eq (h : s.Refused t cause) : s.apply t = .error cause := by
  cases h with
  | range h =>
    rw [Text.size_bytes] at h ⊢
    simp only [apply, if_pos h]
  | start hordered hinside h =>
    rw [Text.size_bytes] at hinside
    have hrange : ¬ (s.stop < s.start ∨ t.byteLength < s.stop) := by omega
    simp only [apply, if_neg hrange, splitAt?_of_not_isCut h]
  | stop hordered hinside hstart h =>
    rw [Text.size_bytes] at hinside
    have hrange : ¬ (s.stop < s.start ∨ t.byteLength < s.stop) := by omega
    obtain ⟨before, rest, rfl, hbefore⟩ := Text.isCut_bytes_iff.mp hstart
    have hrest : Text.splitAt? rest (s.stop - s.start) = none := by
      rw [Option.eq_none_iff_forall_ne_some]
      rintro ⟨old, after⟩ hcut
      obtain ⟨rfl, hold⟩ := Text.splitAt?_eq_some_iff.mp hcut
      refine h (Text.isCut_bytes_iff.mpr ⟨before ++ old, after, by simp, ?_⟩)
      rw [Text.byteLength_append]
      omega
    have hcut := Text.splitAt?_append before rest
    rw [hbefore] at hcut
    simp only [apply, if_neg hrange, hcut, hrest]

/-- A splice that does not fit is refused. -/
theorem fits_or_refused (s : Splice) (t : Text) : s.Fits t ∨ ∃ cause, s.Refused t cause := by
  by_cases hrange : s.stop < s.start ∨ t.bytes.size < s.stop
  · exact Or.inr ⟨_, .range hrange⟩
  have hordered : s.start ≤ s.stop := by omega
  have hinside : s.stop ≤ t.bytes.size := by omega
  by_cases hstart : Text.IsCut t.bytes s.start
  · by_cases hstop : Text.IsCut t.bytes s.stop
    · exact Or.inl ⟨hordered, hinside, hstart, hstop⟩
    · exact Or.inr ⟨_, .stop hordered hinside hstart hstop⟩
  · exact Or.inr ⟨_, .start hordered hinside hstart⟩

/-- **What a splice does**: if it fits, it writes its text over its range and nothing else. -/
theorem apply_eq_ok_iff : s.apply t = .ok r ↔ s.Fits t ∧ s.Rewrites t r := by
  constructor
  · intro h
    rcases fits_or_refused s t with hfits | ⟨cause, hrefused⟩
    · obtain ⟨r', hr', hrewrites⟩ := hfits.apply_eq
      obtain rfl := Except.ok.inj (h.symm.trans hr')
      exact ⟨hfits, hrewrites⟩
    · cases h.symm.trans hrefused.apply_eq
  · rintro ⟨hfits, hr⟩
    obtain ⟨r', hr', hrewrites⟩ := hfits.apply_eq
    rw [hr', Text.bytes_injective (hrewrites.trans hr.symm)]

/-- **When a splice is refused, and why.** -/
theorem apply_eq_error_iff : s.apply t = .error cause ↔ s.Refused t cause := by
  refine ⟨fun h => ?_, Refused.apply_eq⟩
  rcases fits_or_refused s t with hfits | ⟨cause', hrefused⟩
  · obtain ⟨r, hr, -⟩ := hfits.apply_eq
    cases h.symm.trans hr
  · rwa [Except.error.inj (h.symm.trans hrefused.apply_eq)]

end Splice

/-! ## 2. One change -/

/-- A splice that is due.  Its ends are as they have been computed, so they may lie before the
text. -/
structure Change where
  start : Int
  stop : Int
  newText : Text
  deriving DecidableEq, Repr

namespace Change

variable {c : Change} {s : Splice} {t : Text} {e e' : Edited}

/-- Makes a change, or refuses it. -/
def apply (c : Change) (e : Edited) : Except EditError Edited := e.splice c.start c.stop c.newText

/-- What a change adds to the length of a text. -/
def growth (c : Change) : Int := c.newText.byteLength - (c.stop - c.start)

/-- The splice that a change is, if its ends are offsets. -/
structure Is (c : Change) (s : Splice) : Prop where
  start_eq : c.start = s.start
  stop_eq : c.stop = s.stop
  newText_eq : c.newText = s.newText

/-- Whether a text can be cut at an offset. -/
def CutAt (t : Text) (n : Int) : Prop := ∃ k : Nat, n = k ∧ Text.IsCut t.bytes k

/-- The range of a change is inverted, runs past the end of a text, or has an end at which the text
cannot be cut. -/
def Misfits (c : Change) (t : Text) : Prop :=
  c.stop < c.start ∨ (t.byteLength : Int) < c.stop ∨ ¬ CutAt t c.start ∨ ¬ CutAt t c.stop

/-- A change is made: its splice fits, its text is written over its range and nothing else, and the
shift has grown with the text. -/
structure Made (c : Change) (s : Splice) (e e' : Edited) : Prop where
  is : c.Is s
  fits : s.Fits e.text
  rewrites : s.Rewrites e.text e'.text
  shift_eq : e'.shift = e.shift + c.growth

theorem Is.growth_eq (h : c.Is s) : s.growth = c.growth := by
  obtain ⟨hstart, hstop, hnew⟩ := h
  unfold Splice.growth growth
  rw [hstart, hstop, hnew]

/-- A splice that fits is no misfit. -/
theorem Is.not_misfits (h : c.Is s) (hfits : s.Fits t) : ¬ c.Misfits t := by
  have hstart := h.start_eq
  have hstop := h.stop_eq
  have hordered := hfits.ordered
  have hinside := hfits.inside
  rw [Text.size_bytes] at hinside
  rintro (h | h | h | h)
  · omega
  · omega
  · exact h ⟨s.start, hstart, hfits.start_isCut⟩
  · exact h ⟨s.stop, hstop, hfits.stop_isCut⟩

/-- A change that is no misfit is a splice that fits. -/
theorem exists_fits_of_not_misfits (h : ¬ c.Misfits t) : ∃ s, c.Is s ∧ s.Fits t := by
  unfold Misfits at h
  simp only [not_or, Classical.not_not] at h
  obtain ⟨hordered, hinside, ⟨a, ha, hstart⟩, b, hb, hstop⟩ := h
  refine ⟨⟨a, b, c.newText⟩, ⟨ha, hb, rfl⟩, ?_, ?_, hstart, hstop⟩
  · simp only
    omega
  · rw [Text.size_bytes]
    simp only
    omega

/-- The ends of a splice that fits are offsets in the text, so the change is that splice. -/
theorem Is.apply_eq (h : c.Is s) (hfits : s.Fits e.text) : c.apply e =
    match s.apply e.text with
    | .error cause => .error (.splice cause)
    | .ok text => .ok ⟨text, e.shift + s.growth⟩ := by
  have hinside := hfits.inside
  rw [Text.size_bytes] at hinside
  obtain ⟨start, stop, newText⟩ := c
  obtain ⟨rfl, rfl, rfl⟩ := h
  unfold apply Edited.splice
  simp only
  rw [Edited.offset_of_le (Nat.le_trans hfits.ordered hinside), Edited.offset_of_le hinside]
  rfl

/-- A change that is made is a splice that is accepted. -/
theorem exists_splice (h : c.apply e = .ok e') : ∃ s, c.Is s ∧ s.apply e.text = .ok e'.text ∧
    e'.shift = e.shift + s.growth := by
  obtain ⟨a, ha, hfrom⟩ := bind_eq_ok.mp h
  obtain ⟨b, hb, hsplice⟩ := bind_eq_ok.mp hfrom
  refine ⟨⟨a, b, c.newText⟩, ⟨Edited.offset_eq_ok ha, Edited.offset_eq_ok hb, rfl⟩, ?_⟩
  simp only at hsplice
  split at hsplice
  · cases hsplice
  · rename_i r hr
    cases hsplice
    exact ⟨hr, rfl⟩

/-- **A change is made, or it is refused because it misfits.** -/
theorem apply_cases (c : Change) (e : Edited) :
    (∃ s e', c.apply e = .ok e' ∧ c.Made s e e') ∨
      (∃ cause, c.apply e = .error cause) ∧ c.Misfits e.text := by
  cases happly : c.apply e with
  | ok e' =>
    obtain ⟨s, his, hs, hshift⟩ := exists_splice happly
    obtain ⟨hfits, hrewrites⟩ := Splice.apply_eq_ok_iff.mp hs
    exact Or.inl ⟨s, e', rfl, his, hfits, hrewrites, by rw [hshift, his.growth_eq]⟩
  | error cause =>
    refine Or.inr ⟨⟨cause, rfl⟩, Classical.byContradiction fun hnot => ?_⟩
    obtain ⟨s, his, hfits⟩ := exists_fits_of_not_misfits hnot
    obtain ⟨r, hr, -⟩ := hfits.apply_eq
    rw [his.apply_eq hfits, hr] at happly
    cases happly

theorem exists_made (h : c.apply e = .ok e') : ∃ s, c.Made s e e' := by
  rcases apply_cases c e with ⟨s, e₁, he₁, hmade⟩ | ⟨⟨cause, hcause⟩, -⟩
  · obtain rfl := Except.ok.inj (he₁.symm.trans h)
    exact ⟨s, hmade⟩
  · cases hcause.symm.trans h

theorem refused_iff : (∃ cause, c.apply e = .error cause) ↔ c.Misfits e.text := by
  rcases apply_cases c e with ⟨s, e₁, he₁, hmade⟩ | ⟨hrefused, hmisfits⟩
  · refine ⟨fun ⟨cause, hcause⟩ => ?_, fun h => absurd h (hmade.is.not_misfits hmade.fits)⟩
    cases hcause.symm.trans he₁
  · exact ⟨fun _ => hmisfits, fun _ => hrefused⟩

/-- A change that is made adds as much to the length as to the shift. -/
theorem Made.byteLength_eq (h : c.Made s e e') :
    (e'.text.byteLength : Int) - e'.shift = e.text.byteLength - e.shift := by
  have hsplice := Splice.byteLength_apply (Splice.apply_eq_ok_iff.mpr ⟨h.fits, h.rewrites⟩)
  have hgrowth := h.is.growth_eq
  have hshift := h.shift_eq
  omega

end Change

end TextPatch
