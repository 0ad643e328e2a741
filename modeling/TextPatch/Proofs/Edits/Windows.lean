/-
# Edits in windows

A window is a part of a text that is edited as if it were all there is.  What is done to a window
can be done to the whole text in the same way, with every offset counted from the start of the text
instead of the start of the window: `Edited.within` puts an edited window back between what stands
before and behind it, and `splice_within`, `remove_within`, `insert_within` and `editAt_within`
follow the edits at one match through it.

The shift is what makes this work for one match after the other: it is how much the text has grown
so far (`Follows.byteLength_eq`), so it moves the next match exactly to where its window now starts.
`foldlM_windows` carries that through all matches of a rule, and `applyRule_windows` reads it as a
statement about rules: if the text can be cut into windows, one for each match, in which the edits
go well, then they go well in the text, and what comes out is what comes out of the windows.
-/
import TextPatch.Proofs.Edits.Trail

namespace TextPatch

/-! ## 1. One splice -/

namespace Splice

/-- A splice over a part of a text writes its own text in place of that part. -/
theorem apply_cut (before old after newText : Text) :
    (⟨before.byteLength, before.byteLength + old.byteLength, newText⟩ : Splice).apply
        (before ++ old ++ after) = .ok (before ++ newText ++ after) := by
  have hrange : ¬ (before.byteLength + old.byteLength < before.byteLength ∨
      Text.byteLength (before ++ old ++ after) < before.byteLength + old.byteLength) := by
    simp only [Text.byteLength_append]
    omega
  have hstart : Text.splitAt? (before ++ old ++ after) before.byteLength =
      some (before, old ++ after) := by
    rw [List.append_assoc, Text.splitAt?_append]
  have hstop : Text.splitAt? (old ++ after)
      (before.byteLength + old.byteLength - before.byteLength) = some (old, after) := by
    rw [Nat.add_sub_cancel_left, Text.splitAt?_append]
  simp only [apply, if_neg hrange, hstart, hstop]

/-- The range of an accepted splice is in order and inside the text. -/
theorem range_of_apply {s : Splice} {t r : Text} (h : s.apply t = .ok r) :
    s.start ≤ s.stop ∧ s.stop ≤ t.byteLength := by
  obtain ⟨before, old, after, rfl, -, hb, hle, ho⟩ := apply_eq_ok h
  simp only [Text.byteLength_append]
  omega

/-- A splice of a part of a text is a splice of the text. -/
theorem apply_within {s : Splice} {t r : Text} (h : s.apply t = .ok r) (u v : Text) :
    (⟨u.byteLength + s.start, u.byteLength + s.stop, s.newText⟩ : Splice).apply (u ++ t ++ v) =
      .ok (u ++ r ++ v) := by
  obtain ⟨before, old, after, rfl, rfl, hb, hle, ho⟩ := apply_eq_ok h
  have hcut := apply_cut (u ++ before) old (after ++ v) s.newText
  simp only [Text.byteLength_append] at hcut
  rw [show u.byteLength + s.start = u.byteLength + before.byteLength by omega,
    show u.byteLength + s.stop = u.byteLength + before.byteLength + old.byteLength by omega]
  simpa only [List.append_assoc] using hcut

end Splice

namespace Edited

/-! ## 2. The edits at one match -/

/-- An edited text as a part of a longer one, which has grown by `shift` before it was edited. -/
def within (e : Edited) (u v : Text) (shift : Int) : Edited := ⟨u ++ e.text ++ v, shift + e.shift⟩

variable {e e' : Edited} {p : RulePlan} {text : Option Text}

/-- An offset in a window that is counted from further left is that much larger. -/
theorem offset_within {k : Nat} (h : k ≤ e.text.byteLength) (u v : Text) (shift : Int) :
    offset (e.within u v shift).text (u.byteLength + k) = .ok (u.byteLength + k) := by
  refine offset_of_le ?_
  simp only [within, Text.byteLength_append]
  omega

theorem splice_within {start stop : Int} {t : Text} (h : e.splice start stop t = .ok e')
    (u v : Text) (shift : Int) :
    (e.within u v shift).splice (u.byteLength + start) (u.byteLength + stop) t =
      .ok (e'.within u v shift) := by
  obtain ⟨a, ha, hfrom⟩ := bind_eq_ok.mp h
  obtain ⟨b, hb, hsplice⟩ := bind_eq_ok.mp hfrom
  obtain rfl := offset_eq_ok ha
  obtain rfl := offset_eq_ok hb
  simp only at hsplice
  cases happly : (⟨a, b, t⟩ : Splice).apply e.text with
  | error cause =>
    rw [happly] at hsplice
    cases hsplice
  | ok r =>
    rw [happly] at hsplice
    cases hsplice
    obtain ⟨hle, hinside⟩ := Splice.range_of_apply happly
    refine bind_eq_ok.mpr ⟨_, offset_within (Nat.le_trans hle hinside) u v shift,
      bind_eq_ok.mpr ⟨_, offset_within hinside u v shift, ?_⟩⟩
    have hwithin := Splice.apply_within happly u v
    simp only [within, hwithin, Splice.growth]
    exact congrArg Except.ok (congrArg (Edited.mk _) (by omega))

theorem remove_within {origin : Int} {range : Option OffsetRange}
    (h : e.remove origin range = .ok e') (u v : Text) (shift : Int) :
    (e.within u v shift).remove (u.byteLength + origin) range = .ok (e'.within u v shift) := by
  cases range with
  | none =>
    cases h
    rfl
  | some r =>
    have hsplice := splice_within h u v shift
    rwa [← Int.add_assoc, ← Int.add_assoc] at hsplice

/-- The range of an insert text moves with its match. -/
theorem insertRange_add (p : RulePlan) (d start length : Int) :
    p.insertRange (d + start) length =
      (d + (p.insertRange start length).1, d + (p.insertRange start length).2) := by
  unfold RulePlan.insertRange
  cases p.insertMode <;> simp only [Prod.mk.injEq] <;> omega

theorem insert_within {start length : Int} (h : e.insert p start length text = .ok e')
    (u v : Text) (shift : Int) :
    (e.within u v shift).insert p (u.byteLength + start) length text =
      .ok (e'.within u v shift) := by
  cases text with
  | none =>
    cases h
    rfl
  | some t =>
    rw [insert_some] at h ⊢
    rw [insertRange_add]
    exact splice_within h u v shift

/-- **What is done at a match in a window is done at the same match in the text.**  The shift of
the text moves the match to where it stands in the window. -/
theorem editAt_within {found m : Match} (h : editAt p text e found = .ok e') (u v : Text)
    {shift : Int} (hstart : (m.start : Int) + shift = u.byteLength + found.start)
    (hlength : m.length = found.length) :
    editAt p text (e.within u v shift) m = .ok (e'.within u v shift) := by
  obtain ⟨e₁, h₁, h⟩ := bind_eq_ok.mp h
  obtain ⟨e₂, h₂, h⟩ := bind_eq_ok.mp h
  have hplace : (m.start : Int) + (e.within u v shift).shift =
      u.byteLength + (found.start + e.shift) := by
    simp only [within]
    omega
  simp only [editAt, hplace, hlength]
  refine bind_eq_ok.mpr
    ⟨_, remove_within h₁ u v shift, bind_eq_ok.mpr ⟨e₂.within u v shift, ?_, ?_⟩⟩
  · rw [Int.add_assoc]
    exact remove_within h₂ u v shift
  · exact insert_within h u v shift

end Edited

/-! ## 3. The shift is the growth of the text -/

theorem Trail.byteLength_apply {tr : Trail} {t r : Text} (h : Trail.apply tr t = .ok r) :
    (r.byteLength : Int) = t.byteLength + Trail.growth tr := by
  induction tr generalizing t with
  | nil =>
    cases h
    simp [growth]
  | cons s tr ih =>
    obtain ⟨t', hs, htr⟩ := apply_cons_eq_ok.mp h
    have hfirst := Splice.byteLength_apply hs
    have hrest := ih htr
    simp only [growth]
    omega

namespace Edited

variable {p : RulePlan} {text : Option Text}

/-- Along a trail, the shift grows with the text. -/
theorem Follows.byteLength_eq {e e' : Edited} {tr : Trail} (h : Follows e tr e') :
    (e'.text.byteLength : Int) - e'.shift = e.text.byteLength - e.shift := by
  have hlength := Trail.byteLength_apply h.1
  have hshift := h.2
  omega

/-! ## 4. One window for each match -/

/-- Windows of a text from byte `offset` on, one behind the other: each holds the match that has
its place in the list, and the edits at that match, done to the window alone, make of it the text
that has its place in the results. -/
inductive InWindows (p : RulePlan) (text : Option Text) :
    (offset : Nat) → List Match → (windows results : List Text) → Prop
  | nil (offset : Nat) : InWindows p text offset [] [] []
  | cons {offset : Nat} {m : Match} {ms : List Match} {w : Text} {ws results : List Text}
      {e : Edited} (start_le : offset ≤ m.start)
      (stop_le : m.start + m.length ≤ offset + w.byteLength)
      (edits : editAt p text (ofText w) ⟨m.start - offset, m.length⟩ = .ok e)
      (rest : InWindows p text (offset + w.byteLength) ms ws results) :
      InWindows p text offset (m :: ms) (w :: ws) (e.text :: results)

/-- **Edits that go well in windows go well in the text**, whatever stands before and behind the
windows. -/
theorem foldlM_windows {offset : Nat} {ms : List Match} {ws results : List Text}
    (h : InWindows p text offset ms ws results) {u : Text} {shift : Int} (v : Text)
    (hu : (u.byteLength : Int) = offset + shift) :
    ∃ e, ms.foldlM (editAt p text) ⟨u ++ ws.flatten ++ v, shift⟩ = .ok e ∧
      e.text = u ++ results.flatten ++ v := by
  induction h generalizing u shift with
  | nil => exact ⟨⟨u ++ [] ++ v, shift⟩, rfl, rfl⟩
  | @cons offset m ms w ws results e hstart hstop hedits hrest ih =>
    have hplace : (m.start : Int) + shift = u.byteLength + (m.start - offset : Nat) := by omega
    have hfirst := editAt_within hedits u (ws.flatten ++ v) hplace rfl
    -- the growth of this window moves the next match to the start of the next window
    have hgrowth := (follows_editAt hedits).byteLength_eq
    have hu' : ((u ++ e.text).byteLength : Int) =
        (offset + w.byteLength : Nat) + (shift + e.shift) := by
      simp only [ofText] at hgrowth
      rw [Text.byteLength_append]
      omega
    obtain ⟨e', hfold, htext⟩ := ih hu'
    refine ⟨e', ?_, by rw [htext, List.flatten_cons]; simp only [List.append_assoc]⟩
    rw [List.foldlM_cons]
    refine bind_eq_ok.mpr ⟨e.within u (ws.flatten ++ v) shift, ?_, ?_⟩
    · simpa only [within, ofText, List.flatten_cons, List.append_assoc, Int.add_zero] using hfirst
    · simpa only [within, List.append_assoc] using hfold

end Edited

/-! ## 5. Rules -/

/-- What a rule makes of a text is decided by the edits at the matches that it finds. -/
theorem applyRule_of_resolve {file : String} {text : Text} {p : RulePlan} {lookup : Option Lookup}
    {r : Resolution} {insertion : Option Text}
    (hresolve : p.search.resolve file text lookup = .ok r)
    (hinsertion : p.insertion text lookup = .ok insertion) :
    applyRule file text p lookup =
      (r.found.foldlM (Edited.editAt p insertion) (Edited.ofText text)).map Edited.text := by
  unfold applyRule
  rw [hresolve]
  cases hfound : r.found with
  | nil =>
    simp only [hfound]
    rfl
  | cons m ms =>
    simp only [hfound, hinsertion]
    rfl

/-- **Edits at different matches do not disturb each other.**  If the text is a row of windows, one
for each match, in each of which the edits at its match go well by themselves, then the rule goes
well, and it makes of the text the row of what the windows become. -/
theorem applyRule_windows {file : String} {text : Text} {p : RulePlan} {lookup : Option Lookup}
    {r : Resolution} {insertion : Option Text} {windows results : List Text}
    (hresolve : p.search.resolve file text lookup = .ok r)
    (hinsertion : p.insertion text lookup = .ok insertion) (hcut : windows.flatten = text)
    (hwindows : Edited.InWindows p insertion 0 r.found windows results) :
    applyRule file text p lookup = .ok results.flatten := by
  have hstart : (Text.byteLength [] : Int) = (0 : Nat) + 0 := rfl
  obtain ⟨e, hfold, htext⟩ := Edited.foldlM_windows hwindows [] hstart
  rw [applyRule_of_resolve hresolve hinsertion, Edited.ofText]
  simp only [List.nil_append, List.append_nil, hcut] at hfold htext
  rw [hfold]
  exact congrArg Except.ok htext

/-- A rule that takes away the character before every `=` and puts an arrow there. -/
def arrows : RulePlan where
  search := ⟨[], [.literal ['=']], true, false, false, "\"=\""⟩
  insertText := some "→"
  insertMode := .before
  insertOffset := -1
  removeRange := some ⟨-1, 0⟩
  removeRangeAfter := none

/-- The text `a=é;bb=ü;` in two windows, one for each `=`. -/
theorem arrows_windows :
    arrows.search.resolve "f" ['a', '=', 'é', ';', 'b', 'b', '=', 'ü', ';'] none =
      .ok ⟨[⟨1, 1⟩, ⟨7, 1⟩], none⟩ ∧
    arrows.insertion ['a', '=', 'é', ';', 'b', 'b', '=', 'ü', ';'] none = .ok (some ['→']) ∧
    Edited.InWindows arrows (some ['→']) 0 [⟨1, 1⟩, ⟨7, 1⟩]
      [['a', '=', 'é', ';'], ['b', 'b', '=', 'ü', ';']]
      [['→', '=', 'é', ';'], ['b', '→', '=', 'ü', ';']] ∧
    applyRule "f" ['a', '=', 'é', ';', 'b', 'b', '=', 'ü', ';'] arrows none =
      .ok ['→', '=', 'é', ';', 'b', '→', '=', 'ü', ';'] := by
  have hresolve : arrows.search.resolve "f" ['a', '=', 'é', ';', 'b', 'b', '=', 'ü', ';'] none =
      .ok ⟨[⟨1, 1⟩, ⟨7, 1⟩], none⟩ := eq_ok_of_toOption (by decide +kernel)
  have hinsertion : arrows.insertion ['a', '=', 'é', ';', 'b', 'b', '=', 'ü', ';'] none =
      .ok (some ['→']) := eq_ok_of_toOption (by decide +kernel)
  have hwindows : Edited.InWindows arrows (some ['→']) 0 [⟨1, 1⟩, ⟨7, 1⟩]
      [['a', '=', 'é', ';'], ['b', 'b', '=', 'ü', ';']]
      [['→', '=', 'é', ';'], ['b', '→', '=', 'ü', ';']] := by
    have hfirst : Edited.editAt arrows (some ['→']) (Edited.ofText ['a', '=', 'é', ';']) ⟨1, 1⟩ =
        .ok ⟨['→', '=', 'é', ';'], 2⟩ := eq_ok_of_toOption (by decide +kernel)
    have hsecond : Edited.editAt arrows (some ['→']) (Edited.ofText ['b', 'b', '=', 'ü', ';'])
        ⟨2, 1⟩ = .ok ⟨['b', '→', '=', 'ü', ';'], 2⟩ := eq_ok_of_toOption (by decide +kernel)
    have hrest : Edited.InWindows arrows (some ['→']) 5 [⟨7, 1⟩] [['b', 'b', '=', 'ü', ';']]
        [['b', '→', '=', 'ü', ';']] :=
      .cons (m := ⟨7, 1⟩) (e := ⟨['b', '→', '=', 'ü', ';'], 2⟩) (by decide) (by decide) hsecond
        (.nil _)
    exact .cons (m := ⟨1, 1⟩) (e := ⟨['→', '=', 'é', ';'], 2⟩) (by decide) (by decide) hfirst hrest
  exact ⟨hresolve, hinsertion, hwindows, applyRule_windows hresolve hinsertion rfl hwindows⟩

end TextPatch
