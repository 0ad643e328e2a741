/-
# The shift is the growth of the text

A rule edits by one splice after the other, and carries the sum of their growths along: the shift.
Here a rule is taken apart into single splices.  The edits at a match are the changes that are due
there (`Edited.editAt_eq_applyAll`); `Editing` is a rule at work, and `Editing.Step` makes the next
change or takes up the next match.  A run of steps ends where nothing is left to do or where a
change is refused, and what `applyRule` answers is decided there (`RulePlan.applyRule_eq_ok_iff`,
`RulePlan.applyRule_eq_error_iff`).

* A step adds as much to the length of the text as to the shift (`Editing.Step.unshifted_eq`), so
  after any number of steps the shift is the growth of the text.
* What the edits at a match add can be read off the rule and the match (`RulePlan.growthAt`),
  wherever they hit the text (`Edited.shift_foldlM`): matches may overlap, and may have been deleted
  in part.

`applyRule_keeps_shift` puts these together.  It is about integers, and says the same of 64-bit words
that wrap around: a sum that passes the largest word is one at which the text cannot be cut, and
comes out negative, so it is refused either way.
-/
import TextPatch.Proofs.Edits.Overflow
import Mathlib.Algebra.Ring.Int.Defs
import Mathlib.Logic.Relation

namespace TextPatch

/-! ## 1. The changes at one match -/

namespace RulePlan

/-- The change that removes a range, if there is one, counted from byte `origin`. -/
def removalDue (origin : Int) (range : Option OffsetRange) : List Change :=
  range.toList.map fun r => ⟨origin + r.start.toInt, origin + r.stop.toInt, []⟩

/-- The changes that are due at a match that starts at byte `start` of the text as it is. -/
def changesDue (p : RulePlan) (insertion : Option Text) (start length : Int) : List Change :=
  removalDue start p.removeRange ++ removalDue (start + length) p.removeRangeAfter ++
    insertion.toList.map fun t =>
      ⟨(p.insertRange start length).1, (p.insertRange start length).2, t⟩

/-- The length of a range, if there is one. -/
def rangeLength (range : Option OffsetRange) : Int :=
  match range with
  | some r => r.stop.toInt - r.start.toInt
  | none => 0

/-- What the edits at a match add to the length of the text: the insert text comes, the match goes
if the insert text is written over it, and the removed ranges go. -/
def growthAt (p : RulePlan) (insertion : Option Text) (m : Match) : Int :=
  (match insertion with
    | some t => (t.byteLength : Int) - if p.insertMode = .replace then (m.length : Int) else 0
    | none => 0) -
  rangeLength p.removeRange - rangeLength p.removeRangeAfter

end RulePlan

namespace Edited

variable {p : RulePlan} {insertion : Option Text} {e e' : Edited} {m : Match}

/-- Makes changes, one after the other. -/
def applyAll (e : Edited) (cs : List Change) : Except EditError Edited :=
  cs.foldlM (fun e c => c.apply e) e

theorem applyAll_cons (e : Edited) (c : Change) (cs : List Change) :
    e.applyAll (c :: cs) = c.apply e >>= fun e => e.applyAll cs := List.foldlM_cons

theorem applyAll_append (e : Edited) (cs ds : List Change) :
    e.applyAll (cs ++ ds) = e.applyAll cs >>= fun e => e.applyAll ds := List.foldlM_append

theorem remove_eq_applyAll (e : Edited) (origin : Int) (range : Option OffsetRange) :
    e.remove origin range = e.applyAll (RulePlan.removalDue origin range) := by
  cases range with
  | none => rfl
  | some r => exact (bind_pure _).symm

theorem insert_eq_applyAll (e : Edited) (p : RulePlan) (start length : Int)
    (insertion : Option Text) : e.insert p start length insertion =
      e.applyAll (insertion.toList.map fun t =>
        ⟨(p.insertRange start length).1, (p.insertRange start length).2, t⟩) := by
  cases insertion with
  | none => rfl
  | some t =>
    rw [insert_some]
    exact (bind_pure _).symm

/-- **The edits at a match are the changes that are due there**, all of them placed by where the
match is before the first. -/
theorem editAt_eq_applyAll (p : RulePlan) (insertion : Option Text) (e : Edited) (m : Match) :
    editAt p insertion e m = e.applyAll (p.changesDue insertion (m.start + e.shift) m.length) := by
  unfold editAt RulePlan.changesDue
  simp only [applyAll_append, remove_eq_applyAll, insert_eq_applyAll, bind_assoc]

/-- What changes add to the shift. -/
theorem shift_applyAll : ∀ {cs : List Change} {e : Edited}, e.applyAll cs = .ok e' →
    e'.shift = e.shift + (cs.map Change.growth).sum
  | [], e, h => by
    obtain rfl := Except.ok.inj h
    simp
  | c :: cs, e, h => by
    rw [applyAll_cons] at h
    obtain ⟨e₁, hfirst, h⟩ := bind_eq_ok.mp h
    obtain ⟨s, hmade⟩ := Change.exists_made hfirst
    have hshift := hmade.shift_eq
    have hrest := shift_applyAll h
    rw [List.map_cons, List.sum_cons]
    omega

theorem sum_removalDue (origin : Int) (range : Option OffsetRange) :
    ((RulePlan.removalDue origin range).map Change.growth).sum =
      - RulePlan.rangeLength range := by
  cases range with
  | none => rfl
  | some r =>
    simp only [RulePlan.removalDue, RulePlan.rangeLength, Change.growth, Option.toList_some,
      List.map_cons, List.map_nil, List.sum_cons, List.sum_nil, Text.byteLength_nil]
    omega

/-- The changes at a match add to the length what can be read off the match. -/
theorem sum_changesDue (p : RulePlan) (insertion : Option Text) (start : Int) (m : Match) :
    ((p.changesDue insertion start m.length).map Change.growth).sum = p.growthAt insertion m := by
  have hwriting : ∀ t : Text, Change.growth ⟨(p.insertRange start m.length).1,
      (p.insertRange start m.length).2, t⟩ =
        t.byteLength - if p.insertMode = .replace then (m.length : Int) else 0 := by
    intro t
    unfold RulePlan.insertRange Change.growth
    cases p.insertMode <;> simp
  unfold RulePlan.changesDue RulePlan.growthAt
  rw [List.map_append, List.map_append, List.sum_append, List.sum_append, sum_removalDue,
    sum_removalDue]
  cases insertion with
  | none =>
    simp only [Option.toList_none, List.map_nil, List.sum_nil]
    omega
  | some t =>
    simp only [Option.toList_some, List.map_cons, List.map_nil, List.sum_cons, List.sum_nil,
      hwriting]
    omega

/-- **What the edits at matches add to the shift**, wherever the matches are and whatever of them
has been edited before. -/
theorem shift_foldlM : ∀ {ms : List Match} {e : Edited},
    ms.foldlM (editAt p insertion) e = .ok e' →
      e'.shift = e.shift + (ms.map (p.growthAt insertion)).sum
  | [], e, h => by
    obtain rfl := Except.ok.inj h
    simp
  | m :: ms, e, h => by
    rw [List.foldlM_cons] at h
    obtain ⟨e₁, hfirst, h⟩ := bind_eq_ok.mp h
    rw [editAt_eq_applyAll] at hfirst
    have hhere := shift_applyAll hfirst
    rw [sum_changesDue] at hhere
    have hrest := shift_foldlM h
    rw [List.map_cons, List.sum_cons]
    omega

end Edited

/-! ## 2. A rule at work -/

/-- A rule at work: the text as it is, the changes that are left at the match that it is at, and the
matches that are left. -/
structure Editing where
  edited : Edited
  due : List Change
  left : List Match

namespace Editing

variable {p : RulePlan} {insertion : Option Text} {s s' : Editing} {e : Edited}
  {cause : EditError}

/-- A rule before its first edit. -/
def start (text : Text) (found : List Match) : Editing := ⟨.ofText text, [], found⟩

/-- One step of a rule: the next change is made, or the next match is taken up. -/
inductive Step (p : RulePlan) (insertion : Option Text) : Editing → Editing → Prop
  | change {e e' : Edited} {c : Change} {due : List Change} {left : List Match}
      (h : c.apply e = .ok e') : Step p insertion ⟨e, c :: due, left⟩ ⟨e', due, left⟩
  | next (e : Edited) (m : Match) (left : List Match) :
      Step p insertion ⟨e, [], m :: left⟩
        ⟨e, p.changesDue insertion (m.start + e.shift) m.length, left⟩

/-- Any number of steps. -/
abbrev Steps (p : RulePlan) (insertion : Option Text) : Editing → Editing → Prop :=
  Relation.ReflTransGen (Step p insertion)

/-- The change that comes next is refused. -/
def Halts (s : Editing) (cause : EditError) : Prop :=
  ∃ c due, s.due = c :: due ∧ c.apply s.edited = .error cause

/-- What is left of a run, all at once. -/
def finish (p : RulePlan) (insertion : Option Text) (s : Editing) : Except EditError Edited := do
  let e ← s.edited.applyAll s.due
  s.left.foldlM (Edited.editAt p insertion) e

theorem Step.finish_eq (h : Step p insertion s s') :
    finish p insertion s = finish p insertion s' := by
  cases h with
  | change h =>
    unfold finish
    rw [Edited.applyAll_cons, h]
    rfl
  | next e m left =>
    unfold finish
    rw [← Edited.editAt_eq_applyAll]
    rfl

theorem Steps.finish_eq (h : Steps p insertion s s') :
    finish p insertion s = finish p insertion s' := by
  induction h with
  | refl => rfl
  | tail _ hstep ih => exact ih.trans hstep.finish_eq

theorem Halts.finish_eq (h : s.Halts cause) : finish p insertion s = .error cause := by
  obtain ⟨e, due, left⟩ := s
  obtain ⟨c, due, rfl, hcause⟩ := h
  unfold finish
  rw [Edited.applyAll_cons]
  simp only at hcause
  rw [hcause]
  rfl

/-- Where a change is refused, there is no further step: the text stays as it is. -/
theorem Halts.eq_of_steps (h : s.Halts cause) (hsteps : Steps p insertion s s') : s' = s := by
  rcases hsteps.cases_head with rfl | ⟨s₁, hstep, -⟩
  · rfl
  · obtain ⟨c, due, hdue, hcause⟩ := h
    cases hstep with
    | change happly =>
      cases hdue
      cases hcause.symm.trans happly
    | next => cases hdue

/-- The changes that are due are all made, or one of them is refused. -/
theorem exists_taken (p : RulePlan) (insertion : Option Text) (left : List Match) :
    ∀ (due : List Change) (e : Edited),
    (∃ e', Steps p insertion ⟨e, due, left⟩ ⟨e', [], left⟩) ∨
      ∃ s' cause, Steps p insertion ⟨e, due, left⟩ s' ∧ s'.Halts cause
  | [], e => Or.inl ⟨e, .refl⟩
  | c :: due, e => by
    cases happly : c.apply e with
    | error cause => exact Or.inr ⟨_, cause, .refl, c, due, rfl, happly⟩
    | ok e₁ =>
      rcases exists_taken p insertion left due e₁ with ⟨e', hsteps⟩ | ⟨s', cause, hsteps, hhalts⟩
      · exact Or.inl ⟨e', .head (.change happly) hsteps⟩
      · exact Or.inr ⟨s', cause, .head (.change happly) hsteps, hhalts⟩

/-- **Every run comes to an end**: nothing is left to do, or a change is refused. -/
theorem exists_end (p : RulePlan) (insertion : Option Text) :
    ∀ (left : List Match) (due : List Change) (e : Edited),
    (∃ e', Steps p insertion ⟨e, due, left⟩ ⟨e', [], []⟩) ∨
      ∃ s' cause, Steps p insertion ⟨e, due, left⟩ s' ∧ s'.Halts cause
  | [], due, e => exists_taken p insertion [] due e
  | m :: left, due, e => by
    rcases exists_taken p insertion (m :: left) due e with ⟨e₁, htaken⟩ | hhalts
    · have hnext := htaken.tail (.next e₁ m left)
      rcases exists_end p insertion left _ e₁ with ⟨e', hsteps⟩ | ⟨s', cause, hsteps, hhalts⟩
      · exact Or.inl ⟨e', hnext.trans hsteps⟩
      · exact Or.inr ⟨s', cause, hnext.trans hsteps, hhalts⟩
    · exact Or.inr hhalts

/-- **What is left of a run goes well exactly if it gets to where nothing is left to do.** -/
theorem finish_eq_ok_iff : finish p insertion s = .ok e ↔ Steps p insertion s ⟨e, [], []⟩ := by
  constructor
  · intro h
    rcases exists_end p insertion s.left s.due s.edited with
      ⟨e', hsteps⟩ | ⟨s', cause, hsteps, hhalts⟩
    · obtain rfl : e = e' := Except.ok.inj (h.symm.trans hsteps.finish_eq)
      exact hsteps
    · cases h.symm.trans (hsteps.finish_eq.trans hhalts.finish_eq)
  · exact fun hsteps => hsteps.finish_eq

/-- **It fails exactly if it gets to where a change is refused.** -/
theorem finish_eq_error_iff :
    finish p insertion s = .error cause ↔ ∃ s', Steps p insertion s s' ∧ s'.Halts cause := by
  constructor
  · intro h
    rcases exists_end p insertion s.left s.due s.edited with
      ⟨e', hsteps⟩ | ⟨s', cause', hsteps, hhalts⟩
    · cases h.symm.trans hsteps.finish_eq
    · have heq : cause = cause' :=
        Except.error.inj (h.symm.trans (hsteps.finish_eq.trans hhalts.finish_eq))
      exact ⟨s', hsteps, heq ▸ hhalts⟩
  · rintro ⟨s', hsteps, hhalts⟩
    exact hsteps.finish_eq.trans hhalts.finish_eq

/-- The length that the text had before all that the shift counts. -/
def unshifted (s : Editing) : Int := s.edited.text.byteLength - s.edited.shift

/-- **A step adds as much to the length of the text as to the shift.** -/
theorem Step.unshifted_eq (h : Step p insertion s s') : s'.unshifted = s.unshifted := by
  cases h with
  | change h =>
    obtain ⟨splice, hmade⟩ := Change.exists_made h
    exact hmade.byteLength_eq
  | next => rfl

theorem Steps.unshifted_eq (h : Steps p insertion s s') : s'.unshifted = s.unshifted := by
  induction h with
  | refl => rfl
  | tail _ hstep ih => exact hstep.unshifted_eq.trans ih

end Editing

/-! ## 3. Rules -/

namespace RulePlan

variable {p : RulePlan} {file : String} {text out : Text} {lookup : Option Lookup}
  {s : Editing} {cause : EditError}

/-- A state that a rule comes to when it is applied to a text: its search and its insert text are
resolved, and some steps have been made. -/
def Reaches (p : RulePlan) (file : String) (text : Text) (lookup : Option Lookup) (s : Editing) :
    Prop :=
  ∃ r insertion, p.search.resolve file text lookup = .ok r ∧
    p.insertion text lookup = .ok insertion ∧
    Editing.Steps p insertion (.start text r.found) s

/-- In every state, the shift is what the text has grown by. -/
theorem Reaches.shift_eq (h : p.Reaches file text lookup s) :
    s.edited.shift = (s.edited.text.byteLength : Int) - text.byteLength := by
  obtain ⟨r, insertion, -, -, hsteps⟩ := h
  have heq := hsteps.unshifted_eq
  simp only [Editing.unshifted, Editing.start, Edited.ofText] at heq
  omega

/-- **All answers of a rule**, by how far it gets. -/
theorem applyRule_cases (p : RulePlan) (file : String) (text : Text) (lookup : Option Lookup) :
    (∃ c, p.search.resolve file text lookup = .error c ∧
        applyRule file text p lookup = .error (.resolve c)) ∨
      ∃ r, p.search.resolve file text lookup = .ok r ∧
        ((r.found = [] ∧ applyRule file text p lookup = .ok text) ∨
          (∃ cause, r.found ≠ [] ∧ p.insertion text lookup = .error cause ∧
            applyRule file text p lookup = .error cause) ∨
          ∃ insertion, r.found ≠ [] ∧ p.insertion text lookup = .ok insertion ∧
            applyRule file text p lookup =
              (Editing.finish p insertion (.start text r.found)).map Edited.text) := by
  cases hresolve : p.search.resolve file text lookup with
  | error c =>
    refine Or.inl ⟨c, rfl, ?_⟩
    unfold applyRule
    rw [hresolve]
  | ok r =>
    refine Or.inr ⟨r, rfl, ?_⟩
    by_cases hfound : r.found = []
    · refine Or.inl ⟨hfound, ?_⟩
      unfold applyRule
      simp only [hresolve, hfound, List.isEmpty_nil, if_true]
    cases hinsertion : p.insertion text lookup with
    | error cause =>
      refine Or.inr (Or.inl ⟨cause, hfound, rfl, ?_⟩)
      unfold applyRule
      simp only [hresolve, hinsertion, List.isEmpty_iff, if_neg hfound]
      rfl
    | ok insertion =>
      exact Or.inr (Or.inr ⟨insertion, hfound, rfl, applyRule_of_resolve hresolve hinsertion⟩)

theorem map_text_eq_ok {x : Except EditError Edited} :
    x.map Edited.text = .ok out ↔ ∃ e, x = .ok e ∧ e.text = out := by
  cases x <;> simp [Except.map]

theorem map_text_eq_error {x : Except EditError Edited} :
    x.map Edited.text = .error cause ↔ x = .error cause := by
  cases x <;> simp [Except.map]

theorem reaches_iff {r : Resolution} {insertion : Option Text}
    (hresolve : p.search.resolve file text lookup = .ok r)
    (hinsertion : p.insertion text lookup = .ok insertion) :
    p.Reaches file text lookup s ↔ Editing.Steps p insertion (.start text r.found) s := by
  constructor
  · rintro ⟨r', insertion', hresolve', hinsertion', hsteps⟩
    obtain rfl := Except.ok.inj (hresolve.symm.trans hresolve')
    obtain rfl := Except.ok.inj (hinsertion.symm.trans hinsertion')
    exact hsteps
  · exact fun hsteps => ⟨r, insertion, hresolve, hinsertion, hsteps⟩

/-- A rule that finds nothing comes nowhere. -/
theorem Reaches.eq_start (h : p.Reaches file text lookup s) {r : Resolution}
    (hresolve : p.search.resolve file text lookup = .ok r) (hfound : r.found = []) :
    s = .start text [] := by
  obtain ⟨r', insertion, hresolve', -, hsteps⟩ := h
  obtain rfl := Except.ok.inj (hresolve.symm.trans hresolve')
  rw [hfound] at hsteps
  rcases hsteps.cases_head with heq | ⟨s₁, hstep, -⟩
  · exact heq.symm
  · cases hstep

/-- A rule goes well exactly if it finds nothing, or comes to where nothing is left to do. -/
theorem applyRule_eq_ok_iff : applyRule file text p lookup = .ok out ↔
    (∃ r, p.search.resolve file text lookup = .ok r ∧ r.found = [] ∧ out = text) ∨
      ∃ e, p.Reaches file text lookup ⟨e, [], []⟩ ∧ e.text = out := by
  rcases applyRule_cases p file text lookup with ⟨c, hresolve, happly⟩ |
    ⟨r, hresolve, ⟨hfound, happly⟩ | ⟨cause, hfound, hinsertion, happly⟩ |
      ⟨insertion, hfound, hinsertion, happly⟩⟩
  · rw [happly]
    refine ⟨nofun, ?_⟩
    rintro (⟨r, hr, -⟩ | ⟨e, ⟨r, insertion, hr, -⟩, -⟩) <;> cases hresolve.symm.trans hr
  · rw [happly]
    constructor
    · rintro ⟨⟩
      exact Or.inl ⟨r, hresolve, hfound, rfl⟩
    · rintro (⟨-, -, -, rfl⟩ | ⟨e, hreaches, rfl⟩)
      · rfl
      · cases hreaches.eq_start hresolve hfound
        rfl
  · rw [happly]
    refine ⟨nofun, ?_⟩
    rintro (⟨r', hr, hempty, -⟩ | ⟨e, ⟨r', insertion, -, hi, -⟩, -⟩)
    · obtain rfl := Except.ok.inj (hresolve.symm.trans hr)
      exact absurd hempty hfound
    · cases hinsertion.symm.trans hi
  · simp only [happly, map_text_eq_ok, Editing.finish_eq_ok_iff, reaches_iff hresolve hinsertion]
    refine ⟨Or.inr, fun h => h.resolve_left ?_⟩
    rintro ⟨r', hr, hempty, -⟩
    obtain rfl := Except.ok.inj (hresolve.symm.trans hr)
    exact hfound hempty

/-- A rule fails exactly if its search or its insert text does, or if it comes to where a change is
refused. -/
theorem applyRule_eq_error_iff : applyRule file text p lookup = .error cause ↔
    (∃ c, p.search.resolve file text lookup = .error c ∧ cause = .resolve c) ∨
      (∃ r, p.search.resolve file text lookup = .ok r ∧ r.found ≠ [] ∧
        p.insertion text lookup = .error cause) ∨
      ∃ s, p.Reaches file text lookup s ∧ s.Halts cause := by
  rcases applyRule_cases p file text lookup with ⟨c, hresolve, happly⟩ |
    ⟨r, hresolve, ⟨hfound, happly⟩ | ⟨cause', hfound, hinsertion, happly⟩ |
      ⟨insertion, hfound, hinsertion, happly⟩⟩
  · rw [happly]
    constructor
    · rintro ⟨⟩
      exact Or.inl ⟨c, hresolve, rfl⟩
    · rintro (⟨c', hc, rfl⟩ | ⟨r, hr, -⟩ | ⟨s, ⟨r, insertion, hr, -⟩, -⟩)
      · obtain rfl := Except.error.inj (hresolve.symm.trans hc)
        rfl
      · cases hresolve.symm.trans hr
      · cases hresolve.symm.trans hr
  · rw [happly]
    refine ⟨nofun, ?_⟩
    rintro (⟨c', hc, -⟩ | ⟨r', hr, hne, -⟩ | ⟨s, hreaches, c, due, hdue, -⟩)
    · cases hresolve.symm.trans hc
    · obtain rfl := Except.ok.inj (hresolve.symm.trans hr)
      exact absurd hfound hne
    · cases hreaches.eq_start hresolve hfound
      cases hdue
  · rw [happly]
    constructor
    · rintro ⟨⟩
      exact Or.inr (Or.inl ⟨r, hresolve, hfound, hinsertion⟩)
    · rintro (⟨c', hc, -⟩ | ⟨r', -, -, hcause⟩ | ⟨s, ⟨r', insertion, -, hi, -⟩, -⟩)
      · cases hresolve.symm.trans hc
      · exact congrArg Except.error (Except.error.inj (hinsertion.symm.trans hcause))
      · cases hinsertion.symm.trans hi
  · simp only [happly, map_text_eq_error, Editing.finish_eq_error_iff,
      reaches_iff hresolve hinsertion]
    refine ⟨fun h => Or.inr (Or.inr h), ?_⟩
    rintro (⟨c', hc, -⟩ | ⟨r', -, -, hcause⟩ | h)
    · cases hresolve.symm.trans hc
    · cases hinsertion.symm.trans hcause
    · exact h

/-- What a rule that goes well adds to the length of a text can be read off its matches. -/
theorem byteLength_applyRule (h : applyRule file text p lookup = .ok out) :
    ∃ r insertion, p.search.resolve file text lookup = .ok r ∧
      (r.found ≠ [] → p.insertion text lookup = .ok insertion) ∧
      (out.byteLength : Int) = text.byteLength + (r.found.map (p.growthAt insertion)).sum := by
  rcases applyRule_cases p file text lookup with ⟨c, hresolve, happly⟩ |
    ⟨r, hresolve, ⟨hfound, happly⟩ | ⟨cause', hfound, hinsertion, happly⟩ |
      ⟨insertion, hfound, hinsertion, happly⟩⟩
  · cases happly.symm.trans h
  · obtain rfl := Except.ok.inj (happly.symm.trans h)
    refine ⟨r, none, hresolve, fun hne => absurd hfound hne, ?_⟩
    simp [hfound]
  · cases happly.symm.trans h
  · obtain ⟨e, hfinish, rfl⟩ := map_text_eq_ok.mp (happly.symm.trans h)
    have hreaches : p.Reaches file text lookup ⟨e, [], []⟩ :=
      (reaches_iff hresolve hinsertion).mpr (Editing.finish_eq_ok_iff.mp hfinish)
    have hshift := hreaches.shift_eq
    have hsum := Edited.shift_foldlM (e := .ofText text) hfinish
    simp only [Edited.ofText, Editing.start] at hshift hsum
    exact ⟨r, insertion, hresolve, fun _ => hinsertion, by omega⟩

/-- What holds of all the splices of a rule in a text, from the first one to the last or to one that
is refused. -/
structure KeepsShift (p : RulePlan) (file : String) (text : Text) (lookup : Option Lookup) :
    Prop where
  /-- After each splice, the shift is what the text has grown by. -/
  shift_eq : ∀ s, p.Reaches file text lookup s →
    s.edited.shift = (s.edited.text.byteLength : Int) - text.byteLength
  /-- After each splice, the bytes are valid. -/
  isValidUTF8 : ∀ s, p.Reaches file text lookup s → s.edited.text.bytes.IsValidUTF8
  /-- A splice that is made leaves the bytes before its start and behind its stop as they are. -/
  made : ∀ s c due e, p.Reaches file text lookup s → s.due = c :: due →
    c.apply s.edited = .ok e → ∃ splice, c.Made splice s.edited e
  /-- A splice is refused exactly if its range is inverted, runs past the end, or has an end off a
  character boundary. -/
  refused_iff : ∀ s c due, p.Reaches file text lookup s → s.due = c :: due →
    ((∃ cause, c.apply s.edited = .error cause) ↔ c.Misfits s.edited.text)
  /-- Where a splice is refused, the text stays as it is. -/
  stays : ∀ s cause, p.Reaches file text lookup s → s.Halts cause → ∀ insertion s',
    Editing.Steps p insertion s s' → s' = s
  succeeds_iff : ∀ out, applyRule file text p lookup = .ok out ↔
    (∃ r, p.search.resolve file text lookup = .ok r ∧ r.found = [] ∧ out = text) ∨
      ∃ e, p.Reaches file text lookup ⟨e, [], []⟩ ∧ e.text = out
  fails_iff : ∀ cause, applyRule file text p lookup = .error cause ↔
    (∃ c, p.search.resolve file text lookup = .error c ∧ cause = .resolve c) ∨
      (∃ r, p.search.resolve file text lookup = .ok r ∧ r.found ≠ [] ∧
        p.insertion text lookup = .error cause) ∨
      ∃ s, p.Reaches file text lookup s ∧ s.Halts cause
  /-- A rule that goes well adds to the length what can be read off its matches. -/
  byteLength_eq : ∀ out, applyRule file text p lookup = .ok out →
    ∃ r insertion, p.search.resolve file text lookup = .ok r ∧
      (r.found ≠ [] → p.insertion text lookup = .ok insertion) ∧
      (out.byteLength : Int) = text.byteLength + (r.found.map (p.growthAt insertion)).sum
  /-- On 64-bit words that wrap around, the rule does the same and fails for the same reason. -/
  words_eq : SearchSpec.Within lookup text → p.Bounded file text lookup →
    applyRuleWords file text p lookup = applyRule file text p lookup

end RulePlan

/-- **The shift of a rule is the growth of its text**, after each splice and for every rule, text
and lookup. -/
theorem applyRule_keeps_shift (file : String) (text : Text) (p : RulePlan)
    (lookup : Option Lookup) : p.KeepsShift file text lookup where
  shift_eq _ hreaches := hreaches.shift_eq
  isValidUTF8 s _ := Text.isValidUTF8_bytes s.edited.text
  made _ _ _ _ _ _ happly := Change.exists_made happly
  refused_iff _ _ _ _ _ := Change.refused_iff
  stays _ _ _ hhalts _ _ hsteps := hhalts.eq_of_steps hsteps
  succeeds_iff _ := RulePlan.applyRule_eq_ok_iff
  fails_iff _ := RulePlan.applyRule_eq_error_iff
  byteLength_eq _ happly := RulePlan.byteLength_applyRule happly
  words_eq := applyRuleWords_eq

/-- A rule that writes over every `éé`. -/
def shrinking : RulePlan where
  search := ⟨[], [.literal ['é', 'é']], true, false, false, "\"éé\""⟩
  insertText := some "x"
  insertMode := .replace
  insertOffset := 0
  removeRange := none
  removeRangeAfter := none

/-- The second match shares an `é` with the first.  It takes three bytes away nevertheless, `b` and
what the first one wrote among them. -/
example : (applyRule "f" ['a', 'b', 'é', 'é', 'é', '!'] shrinking none).toOption =
      some ['a', 'x', '!'] ∧
    ([⟨2, 4⟩, ⟨4, 4⟩].map (shrinking.growthAt (some ['x']))).sum = -6 := by
  decide +kernel

end TextPatch
