/-
# Descriptors that fail on the bundled script

A descriptor that fails leaves the text as it was before it, and all it may have found out about the
source map is what the provider answers anyway.  So it makes no difference to the descriptors after
it whether it has been tried at all: `failures_leave_no_trace` says that a run comes to what it
comes to on the set without the descriptors that it reports as failed.

The argument is an induction on the descriptors of the set.  `settle_leaveOut` carries it: the
positions that are left out are exactly those at which the run from here on fails.
-/
import TextPatch.Proofs.Bundle.Lookups
import TextPatch.Proofs.Bundle.Outcomes

namespace TextPatch

/-! ## 1. Leaving descriptors out -/

/-- Descriptors without those at some positions; `index` is the position of the first one. -/
def leaveOut (positions : List Nat) : Nat → List Descriptor → List Descriptor
  | _, [] => []
  | index, d :: rest =>
    if index ∈ positions then leaveOut positions (index + 1) rest
    else d :: leaveOut positions (index + 1) rest

/-- Descriptors without those at some positions among the ones for the bundled script. -/
def leaveOutBundled (positions : List Nat) : Nat → List Descriptor → List Descriptor
  | _, [] => []
  | index, d :: rest =>
    if d.target.isBundledScript then
      if index ∈ positions then leaveOutBundled positions (index + 1) rest
      else d :: leaveOutBundled positions (index + 1) rest
    else d :: leaveOutBundled positions index rest

/-- A patch set without the descriptors at some positions among those for the bundled script. -/
def PatchSet.leaveOut (s : PatchSet) (positions : List Nat) : PatchSet :=
  { s with descriptors := leaveOutBundled positions 0 s.descriptors }

theorem filter_leaveOutBundled (positions : List Nat) : ∀ (ds : List Descriptor) (index : Nat),
    (leaveOutBundled positions index ds).filter (fun d => d.target.isBundledScript) =
      leaveOut positions index (ds.filter fun d => d.target.isBundledScript)
  | [], _ => rfl
  | d :: rest, index => by
    have hrest := filter_leaveOutBundled positions rest
    rw [leaveOutBundled, List.filter_cons]
    by_cases hd : d.target.isBundledScript = true
    · rw [if_pos hd, if_pos hd, leaveOut]
      split
      · exact hrest (index + 1)
      · rw [List.filter_cons, if_pos hd, hrest (index + 1)]
    · rw [if_neg hd, if_neg hd, List.filter_cons, if_neg hd, hrest index]

theorem PatchSet.forBundledScript_leaveOut (s : PatchSet) (positions : List Nat) :
    (s.leaveOut positions).forBundledScript =
      TextPatch.leaveOut positions 0 s.forBundledScript :=
  filter_leaveOutBundled positions s.descriptors 0

namespace Bundle

/-! ## 2. The failures of a run -/

section

variable (answer : Answer)

/-- Every descriptor has been applied or has failed. -/
theorem settle_count : ∀ (ds : List Descriptor) (text : Text) (index : Nat),
    (settle answer text index ds).applied + (settle answer text index ds).failures.length =
      ds.length
  | [], _, _ => rfl
  | d :: rest, text, index => by
    rw [settle]
    cases editFiles answer text d.files with
    | ok patched =>
      have ih := settle_count rest patched (index + 1)
      simp only [List.length_cons]
      omega
    | error cause =>
      have ih := settle_count rest text (index + 1)
      simp only [List.length_cons]
      omega

/-- The positions at which descriptors have failed. -/
def Settled.positions (r : Settled) : List Nat := r.failures.map Prod.fst

/-- A failure is at the position of one of the descriptors. -/
theorem settle_positions : ∀ (ds : List Descriptor) (text : Text) (index : Nat),
    ∀ n ∈ (settle answer text index ds).positions, index ≤ n ∧ n < index + ds.length
  | [], _, _ => by simp [settle, Settled.positions]
  | d :: rest, text, index => by
    intro n hn
    rw [settle] at hn
    cases hd : editFiles answer text d.files with
    | ok patched =>
      rw [hd] at hn
      have ih := settle_positions rest patched (index + 1) n hn
      rw [List.length_cons]
      omega
    | error cause =>
      rw [hd] at hn
      rw [List.length_cons]
      rcases List.mem_cons.mp hn with rfl | hn
      · omega
      · have ih := settle_positions rest text (index + 1) n hn
        omega

/-- Failures are reported in the order of the descriptors. -/
theorem settle_increasing : ∀ (ds : List Descriptor) (text : Text) (index : Nat),
    (settle answer text index ds).positions.Pairwise (· < ·)
  | [], _, _ => List.Pairwise.nil
  | d :: rest, text, index => by
    rw [settle]
    cases editFiles answer text d.files with
    | ok patched => exact settle_increasing rest patched (index + 1)
    | error cause =>
      refine List.Pairwise.cons (fun n hn => ?_) (settle_increasing rest text (index + 1))
      exact (settle_positions answer rest text (index + 1) n hn).1

/-- **Descriptors come to the same without those that fail**, and then none fails. -/
theorem settle_leaveOut {positions : List Nat} : ∀ (ds : List Descriptor) (text : Text)
    (index index' : Nat),
    (∀ n, index ≤ n → (n ∈ positions ↔ n ∈ (settle answer text index ds).positions)) →
      settle answer text index' (leaveOut positions index ds) =
        { settle answer text index ds with failures := [] }
  | [], _, _, _, _ => rfl
  | d :: rest, text, index, index', hpositions => by
    rw [settle] at hpositions
    rw [leaveOut, settle]
    cases hd : editFiles answer text d.files with
    | ok patched =>
      rw [hd] at hpositions
      have hkept : index ∉ positions := by
        intro hmem
        have hfailed := (hpositions index (Nat.le_refl _)).mp hmem
        have hlater := (settle_positions answer rest patched (index + 1) index hfailed).1
        omega
      rw [if_neg hkept, settle, hd]
      simp only
      rw [settle_leaveOut rest patched (index + 1) (index' + 1)
        fun n hn => hpositions n (Nat.le_of_succ_le hn)]
    | error cause =>
      rw [hd] at hpositions
      have hleft : index ∈ positions :=
        (hpositions index (Nat.le_refl _)).mpr (by simp [Settled.positions])
      rw [if_pos hleft]
      refine settle_leaveOut rest text (index + 1) index' fun n hn => ?_
      have hne : n ≠ index := by omega
      rw [hpositions n (Nat.le_of_succ_le hn)]
      simp [Settled.positions, hne]

end

/-! ## 3. Whole runs -/

/-- What a run over a script says of its failures, against what the same run does without the
descriptors that it reports as failed. -/
structure LeavesNoTrace (script : Path) (s : PatchSet) (provider : SourceMap.Provider OnTree)
    (dryRun : Bool) (h h' : TreeHost) (r : BundleReport) : Prop where
  without_failed : ∃ h'', (patchSet script (s.leaveOut (r.failures.map Prod.fst)) provider dryRun :
    OnTree _) h = (.ok { r with failures := [] }, h'') ∧ h'.SameFiles h''
  increasing : (r.failures.map Prod.fst).Pairwise (· < ·)
  bounded : ∀ n ∈ r.failures.map Prod.fst, n < s.forBundledScript.length
  count : r.applied + r.failures.length = s.forBundledScript.length

/-- The report on a set without the descriptors that fail. -/
theorem reportOn_leaveOut (answer : Answer) (pristine : Text) (s : PatchSet) :
    reportOn answer pristine
        (s.leaveOut ((reportOn answer pristine s).failures.map Prod.fst)) =
      { reportOn answer pristine s with failures := [] } := by
  have hsettle : settle answer pristine 0
      (leaveOut ((reportOn answer pristine s).failures.map Prod.fst) 0 s.forBundledScript) =
        { settle answer pristine 0 s.forBundledScript with failures := [] } :=
    settle_leaveOut answer s.forBundledScript pristine 0 0 fun n _ => Iff.rfl
  rw [reportOn, PatchSet.forBundledScript_leaveOut, hsettle]
  rfl

/-- A run over fewer descriptors that reports the same text ends in the same way. -/
theorem Ending.congr {script : Path} {report report' : BundleReport} {dryRun : Bool}
    {h h' h'' : TreeHost} {r' : Except BundleError BundleReport}
    (hend : Ending script report h dryRun (.ok report) h')
    (hend' : Ending script report' h dryRun r' h'') (houtput : report'.output = report.output) :
    r' = .ok report' ∧ h'.SameFiles h'' := by
  cases hend with
  | dry hfiles =>
    cases hend' with
    | dry hfiles' => exact ⟨rfl, hfiles'.1.trans hfiles.1.symm, hfiles'.2.trans hfiles.2.symm⟩
  | written hreplace hworking =>
    cases hend' with
    | written hreplace' hworking' =>
      rw [houtput, hreplace] at hreplace'
      exact ⟨rfl, (Except.ok.inj hreplace').symm, hworking'.trans hworking.symm⟩
    | refused hreplace' _ =>
      rw [houtput, hreplace] at hreplace'
      cases hreplace'

theorem Ending.eq_report {script : Path} {report r : BundleReport} {dryRun : Bool}
    {h h' : TreeHost} (hend : Ending script report h dryRun (.ok r) h') : r = report := by
  cases hend <;> rfl

/-- **A descriptor that fails leaves no trace.**  A run that comes to a report comes to the same
text and the same count on the set without the descriptors that have failed, and then without a
failure. -/
theorem failures_leave_no_trace {script : Path} {s : PatchSet}
    {provider : SourceMap.Provider OnTree} {answer : Path → Text → Answer} {dryRun : Bool}
    {h h' : TreeHost} {r : BundleReport} (hprovider : Answering provider answer)
    (hrun : (patchSet script s provider dryRun : OnTree _) h = (.ok r, h')) :
    LeavesNoTrace script s provider dryRun h h' r := by
  rcases patchSet_cases hprovider hrun with ⟨e, -, he⟩ | ⟨pristine, h₁, hopen, hend⟩
  · cases he
  · obtain rfl := hend.eq_report
    constructor
    · rcases hrun' : (patchSet script (s.leaveOut _) provider dryRun : OnTree _) h with ⟨r', h''⟩
      have hend' := ending_of_opened hprovider hopen hrun'
      rw [reportOn_leaveOut] at hend'
      obtain ⟨rfl, hfiles⟩ := hend.congr hend' rfl
      exact ⟨h'', rfl, hfiles⟩
    · exact settle_increasing _ s.forBundledScript pristine 0
    · intro n hn
      have hbound := settle_positions _ s.forBundledScript pristine 0 n hn
      omega
    · exact settle_count _ s.forBundledScript pristine 0

/-- A set of two descriptors.  The first one takes away a character before it fails, the second one
takes away the same character. -/
def brokenSet : PatchSet where
  descriptors :=
    let cut : EditRule := ⟨.one "a", none, none, none, none, some ⟨0, 1⟩, none, none⟩
    [⟨.bundledScript true, [⟨"s.ts", none, [cut, ⟨.one "z", none, none, none, none, none, none,
      none⟩]⟩]⟩, ⟨.bundledScript true, [⟨"s.ts", none, [cut]⟩]⟩]

theorem answering_fixed (answer : Answer) :
    Answering (SourceMap.fixed answer) fun _ _ => answer := ⟨fun _ _ _ => rfl, fun _ _ h => .refl h⟩

theorem exists_patchSet_brokenSet : ∃ r h',
    (patchSet ⟨"/x.js"⟩ brokenSet (SourceMap.fixed (.ok cutMap)) false : OnTree _) cutHost =
      (.ok r, h') ∧ r.failures.map Prod.fst = [0] ∧ r.output = ['b', '=', 'c', 'd'] := by
  have hcheck : (match (patchSet ⟨"/x.js"⟩ brokenSet (SourceMap.fixed (.ok cutMap)) false :
      OnTree _) cutHost with
      | (.ok r, _) =>
        decide (r.failures.map Prod.fst = [0] ∧ r.output = ['b', '=', 'c', 'd'])
      | (.error _, _) => false) = true := by
    decide +kernel
  rcases hrun : (patchSet ⟨"/x.js"⟩ brokenSet (SourceMap.fixed (.ok cutMap)) false : OnTree _)
    cutHost with ⟨r, h'⟩
  rw [hrun] at hcheck
  cases r with
  | error cause => cases hcheck
  | ok r => exact ⟨r, h', rfl, of_decide_eq_true hcheck⟩

theorem brokenSet_leaves_no_trace :
    Answering (SourceMap.fixed (.ok cutMap)) (fun _ _ => .ok cutMap) ∧ ∃ r h',
      (patchSet ⟨"/x.js"⟩ brokenSet (SourceMap.fixed (.ok cutMap)) false : OnTree _) cutHost =
        (.ok r, h') ∧ r.failures.map Prod.fst = [0] ∧ r.output = ['b', '=', 'c', 'd'] ∧
          LeavesNoTrace ⟨"/x.js"⟩ brokenSet (SourceMap.fixed (.ok cutMap)) false cutHost h' r := by
  obtain ⟨r, h', hrun, hfailed, houtput⟩ := exists_patchSet_brokenSet
  exact ⟨answering_fixed _, r, h', hrun, hfailed, houtput,
    failures_leave_no_trace (answering_fixed _) hrun⟩

end Bundle

end TextPatch
