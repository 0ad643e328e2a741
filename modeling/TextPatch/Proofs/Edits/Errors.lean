/-
# Where the errors of a rule come from

A rule can fail in three places: when its search is resolved, when names are put into its insert
text, and when it edits.  An edit fails with an offset that comes out before the text or with a
splice that is refused (`EditError.OfEdit`), and the edits at matches, however many there are, fail
in no other way (`foldlM_fails`).  Both ends of a range are moved by the same amount, and an end that
does not fit into a word is no offset at all, so the splice is not inverted unless the range is.

Hence an error of the search is reported exactly when the search fails (`applyRule_eq_resolve_iff`).
-/
import TextPatch.Edit
import TextPatch.Proofs.Run

namespace TextPatch

/-- Ranges that do not end before they start. -/
structure RulePlan.Ordered (p : RulePlan) : Prop where
  removeRange : ∀ range, p.removeRange = some range → range.start ≤ range.stop
  removeRangeAfter : ∀ range, p.removeRangeAfter = some range → range.start ≤ range.stop

/-- How an edit fails: an offset lies before the text, or a splice is refused, the ends of which are
in order if those of the edit are. -/
inductive EditError.OfEdit (ordered : Prop) : EditError → Prop
  | offset (n : Int64) : OfEdit ordered (.negativeOffset n)
  | splice {s : Splice} {t : Text} {cause : SpliceError} (happly : s.apply t = .error cause)
      (hle : ordered → s.start ≤ s.stop) : OfEdit ordered (.splice cause)

namespace Edited

variable {e : Edited} {p : RulePlan} {text : Option Text} {cause : EditError} {ordered : Prop}

theorem offset_fails {t : Text} {n : Int} (h : offset t n = .error cause) :
    cause.OfEdit ordered := by
  unfold offset at h
  split at h
  · cases h
  · cases h
    exact .offset _

theorem splice_fails {start stop : Int} {t : Text} (hle : ordered → start ≤ stop)
    (h : e.splice start stop t = .error cause) : cause.OfEdit ordered := by
  rcases bind_eq_error.mp h with h | ⟨a, ha, h⟩
  · exact offset_fails h
  rcases bind_eq_error.mp h with h | ⟨b, hb, h⟩
  · exact offset_fails h
  simp only at h
  split at h
  · rename_i happly
    cases h
    refine .splice happly fun hordered => ?_
    have hstart := offset_eq_ok ha
    have hstop := offset_eq_ok hb
    have hends := hle hordered
    change a ≤ b
    omega
  · cases h

theorem remove_fails {origin : Int} {range : Option OffsetRange}
    (hle : ordered → ∀ r, range = some r → r.start ≤ r.stop)
    (h : e.remove origin range = .error cause) : cause.OfEdit ordered := by
  cases range with
  | none => cases h
  | some r =>
    exact splice_fails
      (fun ho => Int.add_le_add_left (Int64.le_iff_toInt_le.mp (hle ho r rfl)) origin) h

theorem insert_fails {start : Int} {length : Nat}
    (h : e.insert p start length text = .error cause) : cause.OfEdit ordered := by
  cases text with
  | none => cases h
  | some t =>
    unfold insert at h
    cases hmode : p.insertMode with
    | before =>
      rw [hmode] at h
      exact splice_fails (fun _ => Int.le_refl _) h
    | after =>
      rw [hmode] at h
      exact splice_fails (fun _ => Int.le_refl _) h
    | replace =>
      rw [hmode] at h
      exact splice_fails (fun _ => Int.le_add_of_nonneg_right (Int.natCast_nonneg length)) h

theorem editAt_fails {m : Match} (h : editAt p text e m = .error cause) :
    cause.OfEdit p.Ordered := by
  rcases bind_eq_error.mp h with h | ⟨e₁, -, h⟩
  · exact remove_fails RulePlan.Ordered.removeRange h
  rcases bind_eq_error.mp h with h | ⟨e₂, -, h⟩
  · exact remove_fails RulePlan.Ordered.removeRangeAfter h
  · exact insert_fails h

/-- **The edits at matches fail as edits do.** -/
theorem foldlM_fails {ms : List Match} (h : ms.foldlM (editAt p text) e = .error cause) :
    cause.OfEdit p.Ordered := by
  induction ms generalizing e with
  | nil => cases h
  | cons m ms ih =>
    rw [List.foldlM_cons] at h
    rcases bind_eq_error.mp h with h | ⟨e₁, -, h⟩
    · exact editAt_fails h
    · exact ih h

end Edited

/-- Every way in which a rule can fail. -/
theorem applyRule_eq_error {file : String} {text : Text} {p : RulePlan} {lookup : Option Lookup}
    {cause : EditError} (h : applyRule file text p lookup = .error cause) :
    (∃ c, cause = .resolve c ∧ p.search.resolve file text lookup = .error c) ∨
      (∃ c, cause = .sourceMap c) ∨ cause.OfEdit p.Ordered := by
  unfold applyRule at h
  split at h
  · rename_i c hresolve
    cases h
    exact Or.inl ⟨c, rfl, hresolve⟩
  · split at h
    · cases h
    · rcases bind_eq_error.mp h with hinsertion | ⟨insertion, -, h⟩
      · -- the insert text fails with an error of the source map
        unfold RulePlan.insertion at hinsertion
        split at hinsertion
        · cases hinsertion
        · split at hinsertion
          · cases hinsertion
            exact Or.inr (Or.inl ⟨_, rfl⟩)
          · cases hinsertion
      · rcases bind_eq_error.mp h with hfold | ⟨e, -, h⟩
        · exact Or.inr (Or.inr (Edited.foldlM_fails hfold))
        · cases h

/-- **A rule fails with an error of its search exactly when the search fails with it.** -/
theorem applyRule_eq_resolve_iff {file : String} {text : Text} {p : RulePlan}
    {lookup : Option Lookup} {cause : NeedleError} :
    applyRule file text p lookup = .error (.resolve cause) ↔
      p.search.resolve file text lookup = .error cause := by
  constructor
  · intro h
    rcases applyRule_eq_error h with ⟨c, hc, hresolve⟩ | ⟨c, hc⟩ | hedit
    · cases hc
      exact hresolve
    · cases hc
    · cases hedit
  · intro h
    unfold applyRule
    rw [h]

end TextPatch
