/-
# Patch sets that have been admitted

A patch set is admitted if it has no flaws.  Checking reads each rule once and by itself; a run reads
the rules again, all rules of a file patch at once, for extensions always without the source map and
for the bundled script always with it.  The two agree, because a descriptor is run as what its target
is (`partition_isExtensions`).  So whatever a run of an admitted set meets, none of the errors that it
reports is one that checking could have told of (`runs_afterCheck`, `script_afterCheck`).

What runs report is followed through their steps by what each step can answer (`OnTree.Gives`).
-/
import TextPatch.Bundle
import TextPatch.Patch.Loading
import TextPatch.Proofs.Extensions.Pristine
import TextPatch.Proofs.Patch.Checked

namespace TextPatch

/-! ## 1. Answers -/

/-- Steps whose answer, on whatever host, is one of which `P` holds. -/
def OnTree.Gives {α : Type} (P : α → Prop) (x : OnTree α) : Prop := ∀ h, P (x h).1

namespace OnTree.Gives

variable {α β : Type} {P : β → Prop} {Q : α → Prop} {x : OnTree α} {f : α → OnTree β}

theorem pure {b : β} (h : P b) : Gives P (Pure.pure b) := fun _ => h

/-- The last step decides. -/
theorem bind (hx : Gives Q x) (hf : ∀ a, Q a → Gives P (f a)) : Gives P (x >>= f) :=
  fun h => hf (x h).1 (hx h) (x h).2

/-- The last step decides, whatever the steps before it answer. -/
theorem after (hf : ∀ a, Gives P (f a)) : Gives P (x >>= f) :=
  fun h => hf (x h).1 (x h).2

end OnTree.Gives

open OnTree (Gives)

/-- Whether a failure can still occur once the rules have been checked. -/
def ApplicationError.AfterCheck : ApplicationError → Prop
  | .edit _ cause => cause.AfterCheck
  | .io _ _ => True
  | .missingFile _ => True
  | .safety _ => True
  | .backup _ => True
  | .record _ => True

/-- An answer that, if it is a failure, is one that can still occur. -/
def FailsAfterCheck {α : Type} (r : Except ApplicationError α) : Prop :=
  ∀ cause, r = .error cause → cause.AfterCheck

theorem failsAfterCheck_ok {α : Type} {a : α} : FailsAfterCheck (.ok a) := by
  intro cause h
  cases h

theorem failsAfterCheck_error {α : Type} {cause : ApplicationError} (h : cause.AfterCheck) :
    FailsAfterCheck (.error cause : Except ApplicationError α) := by
  intro cause' h'
  cases h'
  exact h

/-! ## 2. Extensions -/

/-- Whether a report tells of a failure, of a descriptor or of a whole extension. -/
def ApplyReport.TellsOf (r : ApplyReport) (cause : ApplicationError) : Prop :=
  (∃ o ∈ r.outcomes, o.result = .error cause) ∨ ∃ e ∈ r.targetErrors, e.2 = cause

/-- Reports that tell only of failures that can still occur. -/
def ApplyReport.AfterCheck (r : ApplyReport) : Prop := ∀ cause, r.TellsOf cause → cause.AfterCheck

namespace Apply

theorem editFile_gives {path : Path} {file content : String} {plans : List RulePlan}
    (hplans : ∀ p ∈ plans, p.Ordered) :
    Gives FailsAfterCheck (editFile path file content plans) := by
  unfold editFile
  refine .after fun backup => ?_
  cases backup with
  | error cause => exact .pure (failsAfterCheck_error trivial)
  | ok made =>
    refine .after fun _ => ?_
    cases hrules : applyRules file none content.toList plans with
    | error cause =>
      have hcause : cause.AfterCheck := applyRules_afterCheck hplans hrules
      exact .pure (failsAfterCheck_error hcause)
    | ok patched =>
      refine .after fun written => ?_
      cases written with
      | error cause => exact .pure (failsAfterCheck_error trivial)
      | ok u => exact .pure failsAfterCheck_ok

theorem patchFile_gives {path : Path} {p : FilePatch} (hp : p.Checked false) :
    Gives FailsAfterCheck (patchFile path p) := by
  unfold patchFile
  refine .after fun read => ?_
  split
  · split
    · exact .after fun _ => .pure failsAfterCheck_ok
    · exact .pure (failsAfterCheck_error trivial)
  · exact .pure (failsAfterCheck_error trivial)
  · split
    · exact .pure failsAfterCheck_ok
    · obtain ⟨plans, hplans, hordered⟩ := RulePlan.exists_ofRules hp
      rw [hplans]
      exact editFile_gives hordered

theorem filePatch_gives {e : Enclosure} {p : FilePatch} (hp : p.Checked false) :
    Gives FailsAfterCheck (filePatch e p) := by
  unfold filePatch
  refine .after fun place => ?_
  cases place with
  | error cause => exact .pure (failsAfterCheck_error trivial)
  | ok path => exact patchFile_gives hp

theorem filePatches_gives {e : Enclosure} {ps : List FilePatch} (hps : ∀ p ∈ ps, p.Checked false) :
    Gives FailsAfterCheck (filePatches e ps) := by
  induction ps with
  | nil => exact .pure failsAfterCheck_ok
  | cons p rest ih =>
    have hrest := ih fun q hq => hps q (List.mem_cons_of_mem p hq)
    refine .bind (filePatch_gives (hps p List.mem_cons_self)) fun r hr => ?_
    cases r with
    | error cause => exact .pure (failsAfterCheck_error (hr cause rfl))
    | ok written =>
      refine .bind hrest fun r₁ hr₁ => ?_
      cases r₁ with
      | error cause => exact .pure (failsAfterCheck_error (hr₁ cause rfl))
      | ok files => exact .pure failsAfterCheck_ok

variable {e : Enclosure} {id : String} {source : PatchSource}

theorem descriptor_gives {identity : String} {manifest : Manifest} {d : Descriptor}
    (hd : d.Checked false) :
    Gives (fun r => FailsAfterCheck r.2) (descriptor e id identity manifest d) := by
  unfold descriptor
  refine .after fun recorded => ?_
  split
  · exact .after fun _ => .pure failsAfterCheck_ok
  · refine .bind (filePatches_gives hd) fun r hr => ?_
    cases r with
    | ok files => exact .after fun _ => .pure failsAfterCheck_ok
    | error cause => exact .after fun _ => .pure (failsAfterCheck_error (hr cause rfl))

theorem descriptors_gives {manifest : Manifest} {ds : List Descriptor}
    (hds : ∀ d ∈ ds, d.Checked false) :
    Gives (fun r => ∀ o ∈ r.2, FailsAfterCheck o.result)
      (descriptors e id source manifest ds) := by
  induction ds generalizing manifest with
  | nil => exact .pure (by simp)
  | cons d rest ih =>
    refine .bind (descriptor_gives (hds d List.mem_cons_self)) fun r hr => ?_
    refine .bind (ih fun d' hd' => hds d' (List.mem_cons_of_mem d hd')) fun r₁ hr₁ => ?_
    refine .pure fun o ho => ?_
    rcases List.mem_cons.mp ho with rfl | ho
    · exact hr
    · exact hr₁ o ho

theorem openedTarget_gives {manifest : Manifest} {isActive : Bool} {ds : List Descriptor}
    (hds : ∀ d ∈ ds, d.Checked false) :
    Gives ApplyReport.AfterCheck (openedTarget e manifest id isActive source ds) := by
  unfold openedTarget
  refine .bind (descriptors_gives hds) fun r hr => ?_
  obtain ⟨manifest₁, outcomes⟩ := r
  dsimp only
  split
  · refine .after fun written => ?_
    cases written with
    | ok u =>
      refine .pure fun cause h => ?_
      rcases h with ⟨o, ho, hcause⟩ | ⟨x, hx, -⟩
      · exact hr o ho cause hcause
      · cases hx
    | error written =>
      refine .after fun _ => .pure fun cause h => ?_
      rcases h with ⟨o, ho, hcause⟩ | ⟨x, hx, rfl⟩
      · exact hr o ho cause hcause
      · rw [List.mem_singleton.mp hx]
        trivial
  · refine .pure fun cause h => ?_
    rcases h with ⟨o, ho, hcause⟩ | ⟨x, hx, -⟩
    · exact hr o ho cause hcause
    · cases hx

/-- Opening an extension fails because of the files only. -/
theorem openTarget_gives {root : Path} : Gives FailsAfterCheck (openTarget root) := by
  unfold openTarget
  refine .after fun enclosure => ?_
  cases enclosure with
  | error cause => exact .pure (failsAfterCheck_error trivial)
  | ok e =>
    refine .after fun manifest => ?_
    cases manifest with
    | error cause => exact .pure (failsAfterCheck_error trivial)
    | ok manifest => exact .pure failsAfterCheck_ok

theorem group_gives {find : String → Option InstalledExtension} {ds : List Descriptor}
    (hds : ∀ d ∈ ds, d.Checked false) :
    Gives ApplyReport.AfterCheck (group find source id ds) := by
  unfold group
  cases find id with
  | none =>
    refine .after fun _ => .pure fun cause h => ?_
    rcases h with ⟨o, ho, hcause⟩ | ⟨x, hx, -⟩
    · obtain ⟨d, -, rfl⟩ := List.mem_map.mp ho
      cases hcause
    · cases hx
  | some extension =>
    unfold target
    refine .bind openTarget_gives fun r hr => ?_
    cases r with
    | error cause =>
      refine .after fun _ => .pure fun cause' h => ?_
      rcases h with ⟨o, ho, -⟩ | ⟨x, hx, rfl⟩
      · cases ho
      · rw [List.mem_singleton.mp hx]
        exact hr cause rfl
    | ok opened => exact openedTarget_gives hds

theorem groups_gives {find : String → Option InstalledExtension}
    {gs : List (String × List Descriptor)} (hgs : ∀ g ∈ gs, ∀ d ∈ g.2, d.Checked false) :
    Gives ApplyReport.AfterCheck (groups find source gs) := by
  induction gs with
  | nil =>
    refine .pure fun cause h => ?_
    rcases h with ⟨o, ho, -⟩ | ⟨x, hx, -⟩
    · cases ho
    · cases hx
  | cons g rest ih =>
    refine .bind (group_gives (hgs g List.mem_cons_self)) fun report hreport => ?_
    refine .bind (ih fun g' hg' => hgs g' (List.mem_cons_of_mem g hg')) fun others hothers => ?_
    refine .pure fun cause h => ?_
    rcases h with ⟨o, ho, hcause⟩ | ⟨x, hx, hcause⟩
    · rcases List.mem_append.mp ho with ho | ho
      · exact hreport cause (Or.inl ⟨o, ho, hcause⟩)
      · exact hothers cause (Or.inl ⟨o, ho, hcause⟩)
    · rcases List.mem_append.mp hx with hx | hx
      · exact hreport cause (Or.inr ⟨x, hx, hcause⟩)
      · exact hothers cause (Or.inr ⟨x, hx, hcause⟩)

end Apply

/-! ## 3. The bundled script -/

namespace Bundle

variable {s : Session OnTree} {text : Text}

theorem runRules_gives {file : String} {document : Option SourceMap.Document}
    {plans : List RulePlan} (hplans : ∀ p ∈ plans, p.Ordered) :
    Gives FailsAfterCheck (runRules file document text plans : OnTree _) := by
  unfold runRules
  refine .after fun _ => ?_
  cases hrules : applyRules file (document.map fun d => d.lookup file) text plans with
  | error cause =>
    have hcause : cause.AfterCheck := applyRules_afterCheck hplans hrules
    exact .pure (failsAfterCheck_error hcause)
  | ok t => exact .pure failsAfterCheck_ok

theorem filePatch_gives {p : FilePatch} (hp : p.Checked true) :
    Gives (fun r => FailsAfterCheck r.2) (filePatch s text p) := by
  unfold filePatch
  obtain ⟨plans, hplans, hordered⟩ := RulePlan.exists_ofRules hp
  rw [hplans]
  refine .after fun map => ?_
  cases map with
  | error cause => exact .pure (failsAfterCheck_error trivial)
  | ok document =>
    cases document with
    | none => exact .bind (runRules_gives hordered) fun r hr => .pure hr
    | some d => exact .bind (runRules_gives hordered) fun r hr => .pure hr

theorem filePatches_gives {ps : List FilePatch} (hps : ∀ p ∈ ps, p.Checked true) :
    Gives (fun r => FailsAfterCheck r.2) (filePatches s text ps) := by
  induction ps generalizing s text with
  | nil => exact .pure failsAfterCheck_ok
  | cons p rest ih =>
    refine .bind (filePatch_gives (hps p List.mem_cons_self)) fun r hr => ?_
    obtain ⟨s₁, r⟩ := r
    cases r with
    | error cause => exact .pure (failsAfterCheck_error (hr cause rfl))
    | ok t => exact ih fun q hq => hps q (List.mem_cons_of_mem p hq)

theorem descriptors_gives {index : Nat} {ds : List Descriptor} (hds : ∀ d ∈ ds, d.Checked true) :
    Gives (fun r => ∀ f ∈ r.2.2, ApplicationError.AfterCheck f.2)
      (descriptors s text index ds) := by
  induction ds generalizing s text index with
  | nil => exact .pure (by simp)
  | cons d rest ih =>
    have hds' : ∀ d' ∈ rest, d'.Checked true := fun d' hd' => hds d' (List.mem_cons_of_mem d hd')
    refine .bind (filePatches_gives (hds d List.mem_cons_self)) fun r hr => ?_
    obtain ⟨s₁, r⟩ := r
    cases r with
    | ok patched => exact .bind (ih hds') fun r₁ hr₁ => .pure hr₁
    | error cause =>
      refine .after fun _ => .bind (ih hds') fun r₁ hr₁ => .pure fun f hf => ?_
      rcases List.mem_cons.mp hf with rfl | hf
      · exact hr cause rfl
      · exact hr₁ f hf

/-- Reports that tell only of failures that can still occur. -/
def AfterCheck (r : Except BundleError BundleReport) : Prop :=
  ∀ report, r = .ok report → ∀ f ∈ report.failures, f.2.AfterCheck

theorem patchSet_gives {script : Path} {set : PatchSet} {provider : SourceMap.Provider OnTree}
    {dryRun : Bool} (hset : ∀ d ∈ set.forBundledScript, d.Checked true) :
    Gives AfterCheck (patchSet script set provider dryRun) := by
  have herror : ∀ e, AfterCheck (.error e) := by
    intro e report h
    cases h
  unfold patchSet
  refine .after fun opened => ?_
  cases opened with
  | error e => exact .pure (herror e)
  | ok pristine =>
    refine .bind (descriptors_gives hset) fun r hr => ?_
    obtain ⟨output, applied, failures⟩ := r
    have hok : AfterCheck (.ok ⟨applied, failures, pristine, output⟩) := by
      intro report h
      cases h
      exact hr
    dsimp only
    split
    · exact .pure hok
    · unfold writeScript
      refine .after fun written => ?_
      cases written with
      | error cause => exact .pure (herror _)
      | ok u => exact .after fun _ => .pure hok

end Bundle

/-! ## 4. Admission -/

namespace PatchSet

variable {s : PatchSet}

/-- A set is accepted exactly if it has no flaws. -/
theorem validated_eq_ok_iff {ds : List Descriptor} :
    validated ds = .ok s ↔ s = ⟨ds⟩ ∧ ∀ a i, ¬ s.Flaw a i := by
  unfold validated
  dsimp only
  constructor
  · intro h
    split at h
    · rename_i hissues
      cases h
      exact ⟨rfl, (tells_issues _).eq_nil_iff.mp hissues⟩
    · cases h
  · rintro ⟨rfl, hnone⟩
    rw [(tells_issues _).eq_nil_iff.mpr hnone]

/-- A set with flaws is rejected, with all issues. -/
theorem validated_eq_error_iff {ds : List Descriptor} {e : ConfigError} :
    validated ds = .error e ↔
      (∃ a i, (PatchSet.mk ds).Flaw a i) ∧ e = .validation none (PatchSet.mk ds).issues := by
  have hnil := (tells_issues ⟨ds⟩).eq_nil_iff
  unfold validated
  dsimp only
  constructor
  · intro h
    split at h
    · cases h
    · rename_i hissues
      cases h
      refine ⟨?_, rfl⟩
      rw [hnil] at hissues
      simpa using hissues
  · rintro ⟨⟨a, i, hflaw⟩, rfl⟩
    split
    · rename_i hissues
      exact absurd hflaw (hnil.mp hissues a i)
    · rfl

theorem no_flaw_of_load {t : Text} (h : load t = .ok s) : ∀ a i, ¬ s.Flaw a i := by
  unfold load at h
  split at h
  · cases h
  · obtain ⟨ds, -, h⟩ := bind_eq_ok.mp h
    exact (validated_eq_ok_iff.mp h).2

/-- **Each descriptor of an admitted set is for extensions or for the bundled script.** -/
theorem partition_isExtensions (h : ∀ a i, ¬ s.Flaw a i) :
    s.descriptors.partition (fun d => d.target.isExtensions) =
      (s.forExtensions, s.forBundledScript) := by
  rw [List.partition_eq_filter_filter]
  refine Prod.ext rfl (List.filter_congr fun d hd => ?_)
  rw [Function.comp_apply]
  cases htarget : d.target with
  | extensions ids => rfl
  | bundledScript enabled =>
    cases enabled with
    | true => rfl
    | false =>
      obtain ⟨i, hi⟩ := List.getElem?_of_mem hd
      have hflaw : d.target.Flaw (d.label i) _ := htarget ▸ Target.Flaw.disabled
      exact absurd (PatchSet.Flaw.descriptor hi (.target hflaw)) (h _ _)

theorem checked_of_mem_forExtensions (h : ∀ a i, ¬ s.Flaw a i) {d : Descriptor}
    (hd : d ∈ s.forExtensions) : d.Checked false := by
  obtain ⟨hmem, htarget⟩ := List.mem_filter.mp hd
  have hchecked := checked_of_no_flaw h hmem
  cases ht : d.target with
  | extensions ids => rwa [ht] at hchecked
  | bundledScript enabled =>
    rw [ht] at htarget
    cases htarget

theorem checked_of_mem_forBundledScript (h : ∀ a i, ¬ s.Flaw a i) {d : Descriptor}
    (hd : d ∈ s.forBundledScript) : d.Checked true := by
  obtain ⟨hmem, htarget⟩ := List.mem_filter.mp hd
  have hchecked := checked_of_no_flaw h hmem
  rwa [htarget] at hchecked

/-- **Checking is complete.**  The issues of a set are its flaws, in the order of the document and
once each; a set is rejected, with these issues, exactly if it has any.  In a set that has been
loaded, each descriptor is either for extensions or for the bundled script, both in the order of the
document, and no run of the set, on whatever files and with whatever source maps, reports an error
that checking could have told of. -/
theorem validation_complete :
    (∀ s : PatchSet, Tells s.Flaw s.issues) ∧
    (∀ ds s, validated ds = .ok s ↔ s = ⟨ds⟩ ∧ ∀ a i, ¬ s.Flaw a i) ∧
    (∀ ds e, validated ds = .error e ↔
      (∃ a i, (PatchSet.mk ds).Flaw a i) ∧ e = .validation none (PatchSet.mk ds).issues) ∧
    ∀ t s, load t = .ok s →
      s.descriptors.partition (fun d => d.target.isExtensions) =
        (s.forExtensions, s.forBundledScript) ∧
      (∀ find source (h : TreeHost),
        ((Apply.patchSet find source s : OnTree ApplyReport) h).1.AfterCheck) ∧
      ∀ script provider dryRun (h : TreeHost),
        Bundle.AfterCheck ((Bundle.patchSet script s provider dryRun : OnTree _) h).1 := by
  refine ⟨tells_issues, fun ds s => validated_eq_ok_iff, fun ds e => validated_eq_error_iff,
    fun t s hload => ?_⟩
  have hnone := no_flaw_of_load hload
  refine ⟨partition_isExtensions hnone, fun find source h => ?_, fun script provider dryRun h => ?_⟩
  · refine Apply.groups_gives (fun g hg d hd => ?_) h
    exact checked_of_mem_forExtensions hnone (mem_of_mem_groups hg hd)
  · exact Bundle.patchSet_gives (fun d hd => checked_of_mem_forBundledScript hnone hd) h

/-- A document with a descriptor for an extension and one for the bundled script. -/
def mixedDocument : Text :=
  ("[\x7b\"target\":\x7b\"extension\":\"p.x\"\x7d,\"patches\":[\x7b\"file\":\"a.js\",\"patches\":" ++
    "[\x7b\"search\":\"one\",\"removeRange\":[0,3]\x7d]\x7d]\x7d," ++
    "\x7b\"target\":\x7b\"workbenchJs\":true\x7d,\"patches\":[\x7b\"file\":\"b.ts\",\"patches\":" ++
    "[\x7b\"search\":[\"\x7b\x7bb\x7d\x7d\",\"two\"],\"insertText\":\"2\"\x7d]\x7d]\x7d]").toList

/-- The set that this document holds. -/
def mixedSet : PatchSet where
  descriptors :=
    [⟨.extensions (.one "p.x"),
      [⟨"a.js", none, [⟨.one "one", none, none, none, none, some ⟨0, 3⟩, none, none⟩]⟩]⟩,
    ⟨.bundledScript true, [⟨"b.ts", none, [⟨.many ["\x7b\x7bb\x7d\x7d", "two"], none, some "2",
      none, none, none, none, none⟩]⟩]⟩]

theorem mixedSet_admitted : load mixedDocument = .ok mixedSet ∧
    mixedSet.forExtensions.length = 1 ∧ mixedSet.forBundledScript.length = 1 ∧
      ∀ find source (h : TreeHost),
        ((Apply.patchSet find source mixedSet : OnTree ApplyReport) h).1.AfterCheck := by
  have hload : load mixedDocument = .ok mixedSet := eq_ok_of_toOption (by decide +kernel)
  have hcomplete := validation_complete.2.2.2 mixedDocument mixedSet hload
  exact ⟨hload, rfl, rfl, hcomplete.2.1⟩

end PatchSet

end TextPatch
