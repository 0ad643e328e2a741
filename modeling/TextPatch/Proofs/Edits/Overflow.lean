/-
# Edits in 64-bit words

`Edited.editAt` adds integers and looks only at the end whether a sum is an offset.  On a machine
every sum is a 64-bit word that wraps around, the shift among them.  `EditedWord` is the edits at a
match on such words, operation by operation.

The two agree wherever the text stays below 2^62 bytes (`applyRuleWords_eq`).  What makes them
agree is that a rule whose first edit has gone well asks for no word far below zero:

* before the first edit the match starts at an offset of the text, so that no sum with a word falls
  below -2^63, and a sum that passes 2^63 comes out negative (`Edited.offset_ofInt`);
* after it, the start of a later match may lie before the text, by as much as the text has shrunk.
  But then the same words have been added to the first match and have come to offsets
  (`Edited.above_of_editAt`), so they are above -2^62.
-/
import TextPatch.Proofs.Edits.Splices
import TextPatch.Proofs.Search.Collection
import Mathlib.Algebra.Ring.Int.Defs
import Mathlib.Algebra.Ring.Nat

namespace TextPatch

/-! ## 1. The edits at a match on words -/

/-- A text that is being edited, and how much it has grown, as a word. -/
structure EditedWord where
  text : Text
  shift : Int64
  deriving DecidableEq, Repr

namespace EditedWord

/-- A word as an offset. -/
def offset (n : Int64) : Except EditError Nat :=
  if n < 0 then .error (.negativeOffset n) else .ok n.toInt.toNat

/-- Writes `newText` over the bytes from `start` up to `stop`. -/
def splice (e : EditedWord) (start stop : Int64) (newText : Text) :
    Except EditError EditedWord := do
  let s : Splice := ⟨← offset start, ← offset stop, newText⟩
  match s.apply e.text with
  | .error cause => .error (.splice cause)
  | .ok text =>
    .ok ⟨text, e.shift + (Int64.ofNat newText.byteLength - Int64.ofNat (s.stop - s.start))⟩

/-- Removes a range, if there is one, counted from byte `origin`. -/
def remove (e : EditedWord) (origin : Int64) (range : Option OffsetRange) :
    Except EditError EditedWord :=
  match range with
  | none => .ok e
  | some r => e.splice (origin + r.start) (origin + r.stop) []

/-- Writes the insert text of a rule, if it has one, for a match that starts at byte `start`. -/
def insert (e : EditedWord) (p : RulePlan) (start length : Int64) (text : Option Text) :
    Except EditError EditedWord :=
  match text with
  | none => .ok e
  | some text =>
    let origin := start + p.insertOffset
    match p.insertMode with
    | .before => e.splice origin origin text
    | .after => e.splice (origin + length) (origin + length) text
    | .replace => e.splice origin (origin + length) text

/-- Does all edits of a rule at one match. -/
def editAt (p : RulePlan) (text : Option Text) (e : EditedWord) (m : Match) :
    Except EditError EditedWord := do
  let start := Int64.ofNat m.start + e.shift
  let length := Int64.ofNat m.length
  let e ← e.remove start p.removeRange
  let e ← e.remove (start + length) p.removeRangeAfter
  e.insert p start length text

end EditedWord

namespace Edited

variable {e e' : Edited} {p : RulePlan} {insertion : Option Text} {t : Text}

/-- An edited text with its shift as a word. -/
def toWord (e : Edited) : EditedWord := ⟨e.text, Int64.ofInt e.shift⟩

/-! ## 2. One splice -/

/-- A sum that wraps around once at most comes to the same offset, or is refused with the same
error. -/
theorem offset_ofInt {n : Int} (ht : t.byteLength < 2 ^ 63) (hlow : -2 ^ 63 ≤ n)
    (hhigh : n < 2 ^ 64) : EditedWord.offset (Int64.ofInt n) = offset t n := by
  have hmax : Int64.maxValue.toInt = 2 ^ 63 - 1 := Int64.toInt_maxValue
  unfold EditedWord.offset offset
  simp only [Int64.lt_iff_toInt_lt, Int64.toInt_zero]
  by_cases hwraps : n < 2 ^ 63
  · rw [Int64.toInt_ofInt_of_le hlow hwraps]
    by_cases hneg : n < 0
    · rw [if_pos hneg, if_neg (by omega)]
    · rw [if_neg hneg, if_pos (by omega)]
  · have hwrapped : (Int64.ofInt n).toInt = n - 2 ^ 64 := by
      have hsize : ((Int64.size : Nat) : Int) = 18446744073709551616 := rfl
      rw [Int64.toInt_ofInt, Int.bmod, hsize, Int.emod_eq_of_lt (by omega) (by omega),
        if_neg (by omega)]
      rfl
    rw [hwrapped, if_pos (by omega), if_neg (by omega)]

/-- A splice on words is the splice on integers. -/
theorem splice_ofInt {start stop : Int} (ht : e.text.byteLength < 2 ^ 63)
    (hstart : -2 ^ 63 ≤ start ∧ start < 2 ^ 64) (hstop : -2 ^ 63 ≤ stop ∧ stop < 2 ^ 64)
    (newText : Text) :
    e.toWord.splice (Int64.ofInt start) (Int64.ofInt stop) newText =
      (e.splice start stop newText).map toWord := by
  unfold EditedWord.splice splice
  rw [offset_ofInt ht hstart.1 hstart.2, offset_ofInt ht hstop.1 hstop.2]
  cases offset e.text start with
  | error cause => rfl
  | ok a =>
    cases offset e.text stop with
    | error cause => rfl
    | ok b =>
      cases happly : (⟨a, b, newText⟩ : Splice).apply e.text with
      | error cause =>
        simp only [toWord, bind, Except.bind, happly, Except.map]
      | ok r =>
        have hordered : a ≤ b := (Splice.range_of_apply happly).1
        have hgrowth : Int64.ofNat newText.byteLength - Int64.ofNat (b - a) =
            Int64.ofInt (Splice.growth ⟨a, b, newText⟩) := by
          rw [← Int64.ofInt_eq_ofNat, ← Int64.ofInt_eq_ofNat, ← Int64.ofInt_sub]
          refine congrArg Int64.ofInt ?_
          rw [Splice.growth, Int.ofNat_sub hordered]
        simp only [toWord, bind, Except.bind, happly, Except.map, hgrowth, Int64.ofInt_add]

/-- A splice makes a text longer by no more than what it writes. -/
theorem byteLength_splice_le {start stop : Int} {newText : Text}
    (h : e.splice start stop newText = .ok e') :
    e'.text.byteLength ≤ e.text.byteLength + newText.byteLength := by
  obtain ⟨s, hmade⟩ := Change.exists_made (c := ⟨start, stop, newText⟩) h
  have hlength := hmade.byteLength_eq
  have hshift := hmade.shift_eq
  have hordered := hmade.fits.ordered
  rw [← hmade.is.growth_eq] at hshift
  simp only [Splice.growth, hmade.is.newText_eq.symm] at hshift
  omega

/-- The ends of a splice that goes well are not negative. -/
theorem nonneg_of_splice {start stop : Int} {newText : Text}
    (h : e.splice start stop newText = .ok e') : 0 ≤ start ∧ 0 ≤ stop := by
  obtain ⟨a, ha, hfrom⟩ := bind_eq_ok.mp h
  obtain ⟨b, hb, -⟩ := bind_eq_ok.mp hfrom
  have hstart := offset_eq_ok ha
  have hstop := offset_eq_ok hb
  omega

/-! ## 3. The edits at one match -/

/-- A rule adds no word below `bound` to the start of a match or to its end. -/
structure Above (p : RulePlan) (insertion : Option Text) (bound : Int) : Prop where
  removeRange : ∀ r, p.removeRange = some r → bound ≤ r.start.toInt ∧ bound ≤ r.stop.toInt
  removeRangeAfter : ∀ r, p.removeRangeAfter = some r →
    bound ≤ r.start.toInt ∧ bound ≤ r.stop.toInt
  insertOffset : ∀ t, insertion = some t → bound ≤ p.insertOffset.toInt

/-- No word is below the least. -/
theorem above_minimum (p : RulePlan) (insertion : Option Text) : Above p insertion (-2 ^ 63) where
  removeRange r _ := ⟨r.start.le_toInt, r.stop.le_toInt⟩
  removeRangeAfter r _ := ⟨r.start.le_toInt, r.stop.le_toInt⟩
  insertOffset _ _ := p.insertOffset.le_toInt

theorem remove_ofInt {origin bound : Int} {range : Option OffsetRange}
    (ht : e.text.byteLength < 2 ^ 62) (hlow : -2 ^ 63 ≤ origin + bound) (hhigh : origin < 2 ^ 62)
    (hrange : ∀ r, range = some r → bound ≤ r.start.toInt ∧ bound ≤ r.stop.toInt) :
    e.toWord.remove (Int64.ofInt origin) range = (e.remove origin range).map toWord := by
  cases range with
  | none => rfl
  | some r =>
    obtain ⟨hstart, hstop⟩ := hrange r rfl
    have hstart' := r.start.toInt_lt
    have hstop' := r.stop.toInt_lt
    unfold EditedWord.remove remove
    simp only
    rw [← splice_ofInt (by omega) (by omega) (by omega), Int64.ofInt_add, Int64.ofInt_add,
      Int64.ofInt_toInt, Int64.ofInt_toInt]

theorem insert_ofInt {start length bound : Int} (ht : e.text.byteLength < 2 ^ 62)
    (hlow : -2 ^ 63 ≤ start + bound) (hlength : 0 ≤ length) (hhigh : start + length < 2 ^ 62)
    (hoffset : ∀ t, insertion = some t → bound ≤ p.insertOffset.toInt) :
    e.toWord.insert p (Int64.ofInt start) (Int64.ofInt length) insertion =
      (e.insert p start length insertion).map toWord := by
  cases insertion with
  | none => rfl
  | some t =>
    have hoffset := hoffset t rfl
    have hoffset' := p.insertOffset.toInt_lt
    unfold EditedWord.insert insert
    cases p.insertMode <;> simp only <;>
      rw [← splice_ofInt (by omega) (by omega) (by omega)] <;>
      simp only [Int64.ofInt_add, Int64.ofInt_toInt]

theorem byteLength_remove_le {origin : Int} {range : Option OffsetRange}
    (h : e.remove origin range = .ok e') : e'.text.byteLength ≤ e.text.byteLength := by
  cases range with
  | none =>
    cases h
    exact Nat.le_refl _
  | some r => exact byteLength_splice_le h

/-- The words that a removal asks for are no less than what brings them back to zero. -/
theorem above_of_remove {origin bound : Int} {range : Option OffsetRange}
    (h : e.remove origin range = .ok e') (hbound : origin + bound ≤ 0) {r : OffsetRange}
    (hr : range = some r) : bound ≤ r.start.toInt ∧ bound ≤ r.stop.toInt := by
  subst hr
  have hends := nonneg_of_splice h
  omega

theorem byteLength_insert_le {start length : Int}
    (h : e.insert p start length insertion = .ok e') :
    e'.text.byteLength ≤ e.text.byteLength + (insertion.elim 0 Text.byteLength) := by
  cases insertion with
  | none =>
    cases h
    exact Nat.le_refl _
  | some t =>
    rw [insert_some] at h
    exact byteLength_splice_le h

theorem above_of_insert {start length bound : Int}
    (h : e.insert p start length insertion = .ok e') (hlength : 0 ≤ length)
    (hbound : start + length + bound ≤ 0) (ht : insertion = some t) :
    bound ≤ p.insertOffset.toInt := by
  subst ht
  rw [insert_some] at h
  have hends := nonneg_of_splice h
  unfold RulePlan.insertRange at hends
  cases hmode : p.insertMode <;> simp only [hmode] at hends <;> omega

/-- A match in a text of `size` bytes starts and ends, in the text as it is, no further left than
the text has shrunk and no further right than its end. -/
structure Placed (e : Edited) (size : Nat) (m : Match) : Prop where
  stop_le : m.start + m.length ≤ size
  shift_eq : e.shift = e.text.byteLength - size

/-- **The edits at a match are the same on words**, if the rule asks for no word that takes the
start of the match below -2^63. -/
theorem editAt_ofInt {size : Nat} {bound : Int} {m : Match} (ht : e.text.byteLength < 2 ^ 62)
    (hplaced : e.Placed size m) (habove : Above p insertion bound)
    (hlow : -2 ^ 63 ≤ m.start + e.shift + bound) :
    EditedWord.editAt p insertion e.toWord m = (editAt p insertion e m).map toWord := by
  obtain ⟨hstop, hshift⟩ := hplaced
  have hstart : Int64.ofNat m.start + e.toWord.shift = Int64.ofInt (m.start + e.shift) := by
    rw [Int64.ofInt_add, Int64.ofInt_eq_ofNat]
    rfl
  have hlength : Int64.ofNat m.length = Int64.ofInt m.length := Int64.ofInt_eq_ofNat.symm
  unfold EditedWord.editAt editAt
  simp only [hstart, hlength, ← Int64.ofInt_add _ (m.length : Int)]
  rw [remove_ofInt ht hlow (by omega) habove.removeRange]
  cases hfirst : e.remove (m.start + e.shift) p.removeRange with
  | error cause => rfl
  | ok e₁ =>
    have hlength₁ := byteLength_remove_le hfirst
    simp only [Except.map, bind, Except.bind]
    rw [remove_ofInt (by omega) (by omega) (by omega) habove.removeRangeAfter]
    cases hsecond : e₁.remove (m.start + e.shift + m.length) p.removeRangeAfter with
    | error cause => rfl
    | ok e₂ =>
      have hlength₂ := byteLength_remove_le hsecond
      exact insert_ofInt (by omega) hlow (by omega) (by omega) habove.insertOffset

/-- **Where the edits at one match have gone well, no word is far below zero.** -/
theorem above_of_editAt {size : Nat} {m : Match} (h : editAt p insertion e m = .ok e')
    (ht : e.text.byteLength < 2 ^ 62) (hplaced : e.Placed size m) :
    Above p insertion (-2 ^ 62) := by
  obtain ⟨hstop, hshift⟩ := hplaced
  obtain ⟨e₁, hfirst, h⟩ := bind_eq_ok.mp h
  obtain ⟨e₂, hsecond, h⟩ := bind_eq_ok.mp h
  exact ⟨fun r hr => above_of_remove hfirst (by omega) hr,
    fun r hr => above_of_remove hsecond (by omega) hr,
    fun t ht => above_of_insert h (by omega) (by omega) ht⟩

theorem byteLength_editAt_le {m : Match} (h : editAt p insertion e m = .ok e') :
    e'.text.byteLength ≤ e.text.byteLength + insertion.elim 0 Text.byteLength := by
  obtain ⟨e₁, hfirst, h⟩ := bind_eq_ok.mp h
  obtain ⟨e₂, hsecond, h⟩ := bind_eq_ok.mp h
  have hlength₁ := byteLength_remove_le hfirst
  have hlength₂ := byteLength_remove_le hsecond
  have hlength := byteLength_insert_le h
  omega

/-! ## 4. The edits of a rule -/

/-- **The edits at all matches are the same on words**, while the text stays below 2^62 bytes. -/
theorem foldlM_ofInt {size : Nat} (hsize : size < 2 ^ 62) :
    ∀ {ms : List Match} {e : Edited} {bound : Int},
      (∀ m ∈ ms, e.Placed size m) →
      e.text.byteLength + ms.length * insertion.elim 0 Text.byteLength < 2 ^ 62 →
      Above p insertion bound → -2 ^ 63 ≤ e.shift + bound →
      ms.foldlM (EditedWord.editAt p insertion) e.toWord =
        (ms.foldlM (editAt p insertion) e).map toWord
  | [], _, _, _, _, _, _ => rfl
  | m :: ms, e, bound, hplaced, ht, habove, hlow => by
    have hhere := hplaced m List.mem_cons_self
    rw [List.length_cons, Nat.succ_mul] at ht
    have hfits : e.text.byteLength < 2 ^ 62 := by omega
    rw [List.foldlM_cons, List.foldlM_cons, editAt_ofInt hfits hhere habove (by omega)]
    cases hedits : editAt p insertion e m with
    | error cause => rfl
    | ok e₁ =>
      have hlength := byteLength_editAt_le hedits
      have hshift := (follows_editAt hedits).byteLength_eq
      have hshift₁ : e₁.shift = e₁.text.byteLength - size := by
        have := hhere.shift_eq
        omega
      exact foldlM_ofInt hsize
        (fun m' hm' => ⟨(hplaced m' (List.mem_cons_of_mem m hm')).stop_le, hshift₁⟩)
        (by omega) (above_of_editAt hedits hfits hhere) (by omega)

end Edited

/-- The text after one rule whose edits are done on words. -/
def applyRuleWords (file : String) (text : Text) (p : RulePlan) (lookup : Option Lookup) :
    Except EditError Text :=
  match p.search.resolve file text lookup with
  | .error cause => .error (.resolve cause)
  | .ok r =>
    if r.found.isEmpty then .ok text
    else do
      let insertion ← p.insertion text lookup
      let e ← r.found.foldlM (EditedWord.editAt p insertion) ⟨text, 0⟩
      return e.text

/-- A text and all the copies of an insert text that a rule may write into it stay below 2^62
bytes. -/
def RulePlan.Bounded (p : RulePlan) (file : String) (text : Text) (lookup : Option Lookup) : Prop :=
  ∀ r insertion, p.search.resolve file text lookup = .ok r →
    p.insertion text lookup = .ok insertion →
      text.byteLength + r.found.length * insertion.elim 0 Text.byteLength < 2 ^ 62

/-- **A rule does the same on 64-bit words**, with the same error where it fails, unless the text
could grow to 2^62 bytes. -/
theorem applyRuleWords_eq {file : String} {text : Text} {p : RulePlan} {lookup : Option Lookup}
    (hlookup : SearchSpec.Within lookup text) (hbounded : p.Bounded file text lookup) :
    applyRuleWords file text p lookup = applyRule file text p lookup := by
  unfold applyRuleWords applyRule
  cases hresolve : p.search.resolve file text lookup with
  | error cause => rfl
  | ok r =>
    simp only
    split
    · rfl
    cases hinsertion : p.insertion text lookup with
    | error cause => rfl
    | ok insertion =>
      have hfits := hbounded r insertion hresolve hinsertion
      have hplaced : ∀ m ∈ r.found, (Edited.ofText text).Placed text.byteLength m :=
        fun m hm => ⟨(SearchSpec.liesIn_of_resolve hlookup hresolve m hm).stop_le,
          by simp [Edited.ofText]⟩
      have hfold := Edited.foldlM_ofInt (by omega) hplaced hfits
        (Edited.above_minimum p insertion) (by simp [Edited.ofText])
      have hstart : (Edited.ofText text).toWord = ⟨text, 0⟩ := rfl
      rw [hstart] at hfold
      simp only [bind, Except.bind, hfold]
      cases r.found.foldlM (Edited.editAt p insertion) (.ofText text) <;> rfl

end TextPatch
