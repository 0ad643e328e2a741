/-
# Trails

The edits of a rule are splices, and a run of rules is a run of splices.  A *trail* is the list of
those splices, in order, each written for the text that the ones before it left.

The first half says what a trail does to a part of the text that none of its splices touches: the
part is still there, moved by the growth of the splices that lie before it (`apply_spared`).  The
second half reads the trail of a rule off the rule and its matches (`RulePlan.trail`) and shows that
following it is what applying the rule does (`applyRule_eq_trail`).
-/
import TextPatch.Edit
import TextPatch.Proofs.Run
import TextPatch.Proofs.Text.Cuts

namespace TextPatch

/-- Splices to be done one after the other. -/
abbrev Trail := List Splice

namespace Splice

/-- Whether a splice leaves the `length` bytes from `start` on alone. -/
def Spares (s : Splice) (start length : Nat) : Prop :=
  s.stop ≤ start ∨ start + length ≤ s.start

instance (s : Splice) (start length : Nat) : Decidable (s.Spares start length) :=
  inferInstanceAs (Decidable (_ ∨ _))

/-- Where byte `n` goes: a splice that lies before it moves it by its growth. -/
def carry (s : Splice) (n : Nat) : Nat :=
  if s.stop ≤ n then (n + s.growth).toNat else n

/-- **One splice moves what it spares, and does not change it.** -/
theorem apply_spared {s : Splice} {u w v r : Text} (h : s.apply (u ++ w ++ v) = .ok r)
    (hw : w ≠ []) (hs : s.Spares u.byteLength w.byteLength) :
    ∃ u' v', r = u' ++ w ++ v' ∧ u'.byteLength = s.carry u.byteLength := by
  obtain ⟨before, old, after, ht, rfl, hb, hle, ho⟩ := apply_eq_ok h
  have hpos := Text.byteLength_pos hw
  rcases hs with hs | hs
  · -- the range lies in what stands before the part
    have hcut : (before ++ old) ++ after = u ++ (w ++ v) := by rw [← ht, List.append_assoc]
    have hlen : Text.byteLength (before ++ old) = s.stop := by
      rw [Text.byteLength_append]
      omega
    obtain ⟨e, rfl, rfl⟩ := Text.exists_of_append_eq hcut (by omega)
    refine ⟨before ++ s.newText ++ e, v, by simp, ?_⟩
    rw [carry, if_pos hs, growth]
    simp only [Text.byteLength_append]
    omega
  · -- the range lies in what stands behind the part
    have hcut : (u ++ w) ++ v = before ++ (old ++ after) := by rw [ht, List.append_assoc]
    obtain ⟨e, rfl, rfl⟩ := Text.exists_of_append_eq hcut (by
      rw [Text.byteLength_append]
      omega)
    refine ⟨u, e ++ s.newText ++ after, by simp, ?_⟩
    rw [carry, if_neg (by omega)]

end Splice

namespace Trail

/-! ## 1. Following a trail -/

/-- The text at the end of a trail. -/
def apply : Trail → Text → Except SpliceError Text
  | [], t => .ok t
  | s :: rest, t =>
    match s.apply t with
    | .error cause => .error cause
    | .ok t => apply rest t

/-- How much a text grows along a trail. -/
def growth : Trail → Int
  | [] => 0
  | s :: rest => s.growth + growth rest

/-- Whether no splice of a trail touches the `length` bytes that are at `start` where the trail
begins, wherever the splices before it have moved them. -/
def Spares : Trail → (start length : Nat) → Prop
  | [], _, _ => True
  | s :: rest, start, length => s.Spares start length ∧ Spares rest (s.carry start) length

/-- Where byte `n` is at the end of a trail. -/
def carry (tr : Trail) (n : Nat) : Nat := tr.foldl (fun n s => s.carry n) n

instance decidableSpares : ∀ (tr : Trail) (start length : Nat), Decidable (Spares tr start length)
  | [], _, _ => inferInstanceAs (Decidable True)
  | s :: rest, start, length =>
    have := decidableSpares rest (s.carry start) length
    inferInstanceAs (Decidable (_ ∧ _))

theorem apply_cons_eq_ok {s : Splice} {tr : Trail} {t r : Text} :
    apply (s :: tr) t = .ok r ↔ ∃ t', s.apply t = .ok t' ∧ apply tr t' = .ok r := by
  rw [apply]
  cases s.apply t with
  | error e => simp
  | ok t' => simp

/-- One trail after another. -/
theorem apply_append {a b : Trail} {t t' r : Text} (ha : apply a t = .ok t')
    (hb : apply b t' = .ok r) : apply (a ++ b) t = .ok r := by
  induction a generalizing t with
  | nil =>
    cases ha
    exact hb
  | cons s a ih =>
    obtain ⟨t₁, hs, ha⟩ := apply_cons_eq_ok.mp ha
    exact apply_cons_eq_ok.mpr ⟨t₁, hs, ih ha⟩

theorem growth_append (a b : Trail) : growth (a ++ b) = growth a + growth b := by
  induction a with
  | nil => simp [growth]
  | cons s a ih => simp only [List.cons_append, growth, ih]; omega

/-- **What a whole trail spares is moved and not changed.** -/
theorem apply_spared {tr : Trail} {u w v r : Text} (h : apply tr (u ++ w ++ v) = .ok r)
    (hw : w ≠ []) (hs : Spares tr u.byteLength w.byteLength) :
    ∃ u' v', r = u' ++ w ++ v' ∧ u'.byteLength = carry tr u.byteLength := by
  induction tr generalizing u v with
  | nil =>
    cases h
    exact ⟨u, v, rfl, rfl⟩
  | cons s tr ih =>
    obtain ⟨t, hst, htr⟩ := apply_cons_eq_ok.mp h
    obtain ⟨u₁, v₁, rfl, hu₁⟩ := Splice.apply_spared hst hw hs.1
    have hrest : Spares tr u₁.byteLength w.byteLength := by
      rw [hu₁]
      exact hs.2
    obtain ⟨u₂, v₂, rfl, hu₂⟩ := ih htr hrest
    exact ⟨u₂, v₂, rfl, by rw [hu₂, hu₁, carry, carry, List.foldl_cons]⟩

end Trail

/-! ## 2. The trail of a rule -/

namespace RulePlan

/-- The splice that removes a range, if there is one, counted from byte `origin`. -/
def removal (origin : Int) (range : Option OffsetRange) : Trail :=
  range.toList.map fun r =>
    Splice.remove (origin + r.start.toInt).toNat (origin + r.stop.toInt).toNat

/-- The range over which the insert text goes, for a match that starts at byte `start`. -/
def insertRange (p : RulePlan) (start length : Int) : Int × Int :=
  let origin := start + p.insertOffset.toInt
  match p.insertMode with
  | .before => (origin, origin)
  | .after => (origin + length, origin + length)
  | .replace => (origin, origin + length)

/-- The splice that writes the insert text, if there is one. -/
def writing (p : RulePlan) (start length : Int) (text : Option Text) : Trail :=
  text.toList.map fun t =>
    ⟨(p.insertRange start length).1.toNat, (p.insertRange start length).2.toNat, t⟩

/-- The splices at a match that starts at byte `start` of the text as it is. -/
def splicesAt (p : RulePlan) (text : Option Text) (start length : Int) : Trail :=
  removal start p.removeRange ++ removal (start + length) p.removeRangeAfter ++
    p.writing start length text

/-- The splices at several matches, in order; `shift` is the growth before them. -/
def splices (p : RulePlan) (text : Option Text) (shift : Int) : List Match → Trail
  | [] => []
  | m :: ms =>
    let here := p.splicesAt text (m.start + shift) m.length
    here ++ splices p text (shift + Trail.growth here) ms

/-- The splices of a rule in a text: none if its search or its insert text cannot be resolved. -/
def trail (p : RulePlan) (file : String) (text : Text) (lookup : Option Lookup) : Trail :=
  match p.search.resolve file text lookup, p.insertion text lookup with
  | .ok r, .ok insertion => p.splices insertion 0 r.found
  | _, _ => []

end RulePlan

namespace Edited

/-- One state of an edited text comes from another along a trail. -/
def Follows (e : Edited) (tr : Trail) (e' : Edited) : Prop :=
  Trail.apply tr e.text = .ok e'.text ∧ e'.shift = e.shift + Trail.growth tr

theorem Follows.refl (e : Edited) : Follows e [] e := ⟨rfl, by simp [Trail.growth]⟩

theorem Follows.trans {e e₁ e₂ : Edited} {a b : Trail} (ha : Follows e a e₁)
    (hb : Follows e₁ b e₂) : Follows e (a ++ b) e₂ := by
  refine ⟨Trail.apply_append ha.1 hb.1, ?_⟩
  rw [Trail.growth_append, hb.2, ha.2]
  omega

/-- An edit that is accepted is one splice. -/
theorem follows_splice {e e' : Edited} {start stop : Int} {t : Text}
    (h : e.splice start stop t = .ok e') : Follows e [⟨start.toNat, stop.toNat, t⟩] e' := by
  obtain ⟨a, ha, hfrom⟩ := bind_eq_ok.mp h
  obtain ⟨b, hb, hsplice⟩ := bind_eq_ok.mp hfrom
  obtain rfl := offset_eq_ok ha
  obtain rfl := offset_eq_ok hb
  simp only [Int.toNat_natCast] at hsplice ⊢
  split at hsplice
  · cases hsplice
  · rename_i r hr
    cases hsplice
    refine ⟨Trail.apply_cons_eq_ok.mpr ⟨r, hr, rfl⟩, ?_⟩
    simp [Trail.growth]

theorem follows_remove {e e' : Edited} {origin : Int} {range : Option OffsetRange}
    (h : e.remove origin range = .ok e') : Follows e (RulePlan.removal origin range) e' := by
  cases range with
  | none =>
    cases h
    exact Follows.refl e
  | some r => exact follows_splice h

/-- The insert text is written over its range. -/
theorem insert_some (e : Edited) (p : RulePlan) (start length : Int) (t : Text) :
    e.insert p start length (some t) =
      e.splice (p.insertRange start length).1 (p.insertRange start length).2 t := by
  unfold insert RulePlan.insertRange
  cases p.insertMode <;> rfl

theorem follows_insert {e e' : Edited} {p : RulePlan} {start length : Int} {text : Option Text}
    (h : e.insert p start length text = .ok e') : Follows e (p.writing start length text) e' := by
  cases text with
  | none =>
    cases h
    exact Follows.refl e
  | some t =>
    rw [insert_some] at h
    exact follows_splice h

/-- All that is done at one match is the trail of that match. -/
theorem follows_editAt {p : RulePlan} {text : Option Text} {e e' : Edited} {m : Match}
    (h : editAt p text e m = .ok e') :
    Follows e (p.splicesAt text (m.start + e.shift) m.length) e' := by
  obtain ⟨e₁, h₁, h⟩ := bind_eq_ok.mp h
  obtain ⟨e₂, h₂, h⟩ := bind_eq_ok.mp h
  exact ((follows_remove h₁).trans (follows_remove h₂)).trans (follows_insert h)

/-- All that is done at several matches is their trail. -/
theorem follows_foldlM {p : RulePlan} {text : Option Text} :
    ∀ {ms : List Match} {e e' : Edited}, ms.foldlM (editAt p text) e = .ok e' →
      Follows e (p.splices text e.shift ms) e'
  | [], e, e', h => by
    cases h
    exact Follows.refl e
  | m :: ms, e, e', h => by
    rw [List.foldlM_cons] at h
    obtain ⟨e₁, h₁, h⟩ := bind_eq_ok.mp h
    have hhere := follows_editAt h₁
    have hrest := follows_foldlM h
    rw [hhere.2] at hrest
    exact hhere.trans hrest

end Edited

/-- **Applying a rule is following its trail.** -/
theorem applyRule_eq_trail {file : String} {text r : Text} {p : RulePlan}
    {lookup : Option Lookup} (h : applyRule file text p lookup = .ok r) :
    Trail.apply (p.trail file text lookup) text = .ok r := by
  unfold applyRule at h
  unfold RulePlan.trail
  cases hres : p.search.resolve file text lookup with
  | error e =>
    rw [hres] at h
    cases h
  | ok found =>
    rw [hres] at h
    simp only at h
    split at h
    · -- an optional search that found nothing has nothing to splice
      rename_i hempty
      cases h
      cases p.insertion text lookup with
      | error e => rfl
      | ok insertion =>
        simp only [List.isEmpty_iff.mp hempty]
        rfl
    · obtain ⟨insertion, hins, h⟩ := bind_eq_ok.mp h
      obtain ⟨e, he, h⟩ := bind_eq_ok.mp h
      cases h
      rw [hins]
      exact (Edited.follows_foldlM he).1

end TextPatch
