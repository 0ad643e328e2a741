/-
# Rules that have been checked

A rule that has been checked still meets a text that it does not fit: its needles are not there, the
source map does not know a name, an offset lies before the text, a range runs past the end or cuts a
character.  These are the errors that remain (`EditError.AfterCheck`).  Its search is valid, and its
ranges are not inverted, so none of its splices is (`applyRule_afterCheck`).  Wrapping around does
not invert one either: an end whose sum does not fit into a word comes out negative, and that is an
error of the offset (`Edited.offset`, and `applyRuleWords_eq` for the arithmetic on words).
-/
import TextPatch.Proofs.Edits.Errors
import TextPatch.Proofs.Patch.Flaws

namespace TextPatch

/-! ## 1. Errors that remain -/

/-- Whether an error of a search can still occur once the search has been checked. -/
def NeedleError.AfterCheck : NeedleError → Prop
  | .emptySearch => False
  | .emptyNeedle _ => False
  | .sourceNeedleAfterRegular _ => False
  | .invalidRegex _ _ => False
  | .unknownRegexFlag _ _ => False
  | .notFound _ _ _ => True
  | .sourceMap _ => True

/-- Whether a splice is refused because of the text only: its range runs past the end of the text,
or it cuts a character. -/
def SpliceError.AfterCheck : SpliceError → Prop
  | .invalidRange start stop length => start ≤ stop ∧ length < stop
  | .notBoundary _ => True

/-- Whether an error can still occur once the rule has been checked. -/
def EditError.AfterCheck : EditError → Prop
  | .splice cause => cause.AfterCheck
  | .negativeOffset _ => True
  | .resolve cause => cause.AfterCheck
  | .sourceMap _ => True

/-! ## 2. Rules -/

variable {p : RulePlan} {cause : EditError}

/-- A splice that is not inverted is refused because of the text only. -/
theorem Splice.apply_afterCheck {s : Splice} {t : Text} {cause : SpliceError}
    (hle : s.start ≤ s.stop) (h : s.apply t = .error cause) : cause.AfterCheck := by
  unfold apply at h
  split at h
  · rename_i hrange
    cases h
    exact ⟨hle, hrange.resolve_left (Nat.not_lt.mpr hle)⟩
  · split at h
    · cases h
      trivial
    · split at h
      · cases h
        trivial
      · cases h

theorem EditError.OfEdit.afterCheck (hp : p.Ordered) (h : cause.OfEdit p.Ordered) :
    cause.AfterCheck := by
  cases h with
  | offset n => trivial
  | splice happly hle => exact Splice.apply_afterCheck (hle hp) happly

/-- A search that has been checked fails because of the text or the source map only. -/
theorem SearchSpec.resolve_afterCheck {s : SearchSpec} {file : String} {text : Text}
    {lookup : Option Lookup} {cause : NeedleError}
    (h : s.resolve file text lookup = .error cause) : cause.AfterCheck := by
  rcases bind_eq_error.mp h with h | ⟨identifier, -, h⟩
  · unfold SearchSpec.identifier at h
    split at h
    · cases h
    · split at h
      · cases h
        trivial
      · split at h
        · cases h
          trivial
        · cases h
  · split at h
    · cases h
    · split at h
      · split at h
        · cases h
        · cases h
          trivial
      · cases h

/-- **A rule whose ranges are ordered fails because of the text or the source map only.** -/
theorem applyRule_afterCheck (hp : p.Ordered) {file : String} {text : Text}
    {lookup : Option Lookup} (h : applyRule file text p lookup = .error cause) :
    cause.AfterCheck := by
  rcases applyRule_eq_error h with ⟨c, rfl, hresolve⟩ | ⟨c, rfl⟩ | hedit
  · exact SearchSpec.resolve_afterCheck hresolve
  · trivial
  · exact hedit.afterCheck hp

theorem applyRules_afterCheck {file : String} {lookup : Option Lookup} {plans : List RulePlan}
    (hplans : ∀ p ∈ plans, p.Ordered) {text : Text}
    (h : applyRules file lookup text plans = .error cause) : cause.AfterCheck := by
  induction plans generalizing text with
  | nil => cases h
  | cons p plans ih =>
    rcases bind_eq_error.mp h with h | ⟨t, -, h⟩
    · exact applyRule_afterCheck (hplans p List.mem_cons_self) h
    · exact ih (fun q hq => hplans q (List.mem_cons_of_mem p hq)) h

/-! ## 3. Checking -/

/-- A rule with a valid search, and without inverted ranges. -/
structure EditRule.Checked (sourceMapped : Bool) (r : EditRule) : Prop where
  valid : ∃ p, RulePlan.ofRule r sourceMapped = .ok p
  removeRange : ∀ range, r.removeRange = some range → ¬ range.stop < range.start
  removeRangeAfter : ∀ range, r.removeRangeAfter = some range → ¬ range.stop < range.start

/-- A file patch whose rules have been checked. -/
def FilePatch.Checked (sourceMapped : Bool) (p : FilePatch) : Prop :=
  ∀ r ∈ p.rules, r.Checked sourceMapped

/-- A descriptor whose rules have been checked. -/
def Descriptor.Checked (sourceMapped : Bool) (d : Descriptor) : Prop :=
  ∀ p ∈ d.files, p.Checked sourceMapped

variable {sourceMapped : Bool}

/-- The ranges of a rule stay as they are when it is checked. -/
theorem RulePlan.ordered_of_checked {r : EditRule} (hr : r.Checked sourceMapped)
    (h : RulePlan.ofRule r sourceMapped = .ok p) : p.Ordered := by
  obtain ⟨search, -, hp⟩ := bind_eq_ok.mp h
  cases hp
  exact ⟨fun range hrange => Int64.not_lt.mp (hr.removeRange range hrange),
    fun range hrange => Int64.not_lt.mp (hr.removeRangeAfter range hrange)⟩

/-- **Checked rules have plans**, and these are ordered. -/
theorem RulePlan.exists_ofRules {rules : List EditRule}
    (hrules : ∀ r ∈ rules, r.Checked sourceMapped) :
    ∃ plans, RulePlan.ofRules sourceMapped rules = .ok plans ∧ ∀ p ∈ plans, p.Ordered := by
  unfold RulePlan.ofRules
  induction rules with
  | nil => exact ⟨[], rfl, by simp⟩
  | cons r rules ih =>
    have hr := hrules r List.mem_cons_self
    obtain ⟨p, hp⟩ := hr.valid
    obtain ⟨plans, hplans, hordered⟩ := ih fun r' hr' => hrules r' (List.mem_cons_of_mem r hr')
    refine ⟨p :: plans, ?_, fun q hq => ?_⟩
    · rw [List.mapM_cons, hp, hplans]
      rfl
    · rcases List.mem_cons.mp hq with rfl | hq
      · exact RulePlan.ordered_of_checked hr hp
      · exact hordered q hq

/-- A rule without flaws has been checked. -/
theorem EditRule.checked_of_no_flaw {r : EditRule} {patch file : String} {index : Nat}
    (h : ∀ a i, ¬ r.Flaw patch file index sourceMapped a i) : r.Checked sourceMapped where
  valid := by
    cases hrule : RulePlan.ofRule r sourceMapped with
    | ok p => exact ⟨p, rfl⟩
    | error cause => exact absurd (EditRule.Flaw.search hrule) (h _ _)
  removeRange _ hrange hinverted := h _ _ (.removeRange hrange hinverted)
  removeRangeAfter _ hrange hinverted := h _ _ (.removeRangeAfter hrange hinverted)

/-- **The descriptors of a set without flaws have been checked**, each for its own target. -/
theorem PatchSet.checked_of_no_flaw {s : PatchSet} (h : ∀ a i, ¬ s.Flaw a i) {d : Descriptor}
    (hd : d ∈ s.descriptors) : d.Checked d.target.isBundledScript := by
  intro p hp r hr
  obtain ⟨i, hi⟩ := List.getElem?_of_mem hd
  obtain ⟨j, hj⟩ := List.getElem?_of_mem hp
  obtain ⟨k, hk⟩ := List.getElem?_of_mem hr
  exact EditRule.checked_of_no_flaw fun a issue hflaw =>
    h _ issue (.descriptor hi (.file hj (.rule hk hflaw)))

end TextPatch
