/-
# Runs over extensions

How the parts of a run fit together: each definition of the patcher is taken apart into the steps
that it makes on a tree of files, in the order in which it makes them (`filePatches_cons`,
`descriptor_cases`, `openedTarget_cases`, `files_cons`, `extension_cases`).

An *attempt* is a descriptor that is tried on an extension that is open, with the hosts before and
after it.  `Run.attempts` lists the attempts of a run, and `Run.outcome_attempts` shows that they
are what the run reports, except for extensions that are not installed.
-/
import TextPatch.Proofs.Extensions.Steps

namespace TextPatch

namespace Apply

variable {e : Enclosure} {h h' : TreeHost}

/-! ## 1. Descriptors -/

/-- File patches are applied one after the other; the first that fails decides. -/
theorem filePatches_cons {p : FilePatch} {rest : List FilePatch}
    {r : Except ApplicationError (List String)}
    (hrun : (filePatches e (p :: rest) : OnTree _) h = (r, h')) :
    (∃ cause, (filePatch e p : OnTree _) h = (.error cause, h') ∧ r = .error cause) ∨
      ∃ written h₁ r₁, (filePatch e p : OnTree _) h = (.ok written, h₁) ∧
        (filePatches e rest : OnTree _) h₁ = (r₁, h') ∧
          r = r₁.map fun files => if written then p.file :: files else files := by
  rw [filePatches, OnTree.bind_apply] at hrun
  rcases hfile : (filePatch e p : OnTree _) h with ⟨w, h₁⟩
  rw [hfile] at hrun
  cases w with
  | error cause =>
    obtain ⟨rfl, rfl⟩ := Prod.mk.inj hrun
    exact Or.inl ⟨cause, rfl, rfl⟩
  | ok written =>
    simp only at hrun
    rw [OnTree.bind_apply] at hrun
    rcases hrest : (filePatches e rest : OnTree _) h₁ with ⟨r₁, h₂⟩
    rw [hrest] at hrun
    cases r₁ with
    | error cause =>
      obtain ⟨rfl, rfl⟩ := Prod.mk.inj hrun
      exact Or.inr ⟨written, h₁, _, rfl, hrest, rfl⟩
    | ok files =>
      obtain ⟨rfl, rfl⟩ := Prod.mk.inj hrun
      exact Or.inr ⟨written, h₁, _, rfl, hrest, rfl⟩

/-- Whether an identity is recorded, in the manifest at hand or in the one on disk. -/
def IsRecorded (h : TreeHost) (e : Enclosure) (manifest : Manifest) (identity : String) : Prop :=
  manifest.contains identity = true ∨
    ∃ fresh, ((Manifest.read e.root : OnTree _) h).1 = .ok fresh ∧ fresh.contains identity = true

theorem isRecorded_apply {manifest : Manifest} {identity : String} {b : Bool}
    (hrun : (isRecorded e manifest identity : OnTree _) h = (b, h')) :
    h' = h ∧ (b = true ↔ IsRecorded h e manifest identity) := by
  unfold isRecorded at hrun
  by_cases hc : manifest.contains identity = true
  · rw [if_pos hc] at hrun
    obtain ⟨rfl, rfl⟩ := Prod.mk.inj hrun
    exact ⟨rfl, by simp [IsRecorded, hc]⟩
  · rw [if_neg hc, OnTree.bind_apply] at hrun
    rcases hread : (Manifest.read e.root : OnTree _) h with ⟨m, h₁⟩
    rw [hread] at hrun
    obtain ⟨rfl, -⟩ := Manifest.read_apply hread
    unfold IsRecorded
    rw [hread]
    cases m with
    | error cause =>
      obtain ⟨rfl, rfl⟩ := Prod.mk.inj hrun
      exact ⟨rfl, by simp [hc]⟩
    | ok fresh =>
      obtain ⟨rfl, rfl⟩ := Prod.mk.inj hrun
      exact ⟨rfl, by simp [hc]⟩

/-- **Every way in which a descriptor can end.**  One that is recorded is skipped and nothing
changes; another one has its file patches applied, and is recorded if they all are. -/
theorem descriptor_cases {id identity : String} {manifest manifest' : Manifest} {d : Descriptor}
    {r : Except ApplicationError PatchResult}
    (hrun : (descriptor e id identity manifest d : OnTree _) h = ((manifest', r), h')) :
    (IsRecorded h e manifest identity ∧ manifest' = manifest ∧ r = .ok (.alreadyApplied id) ∧
        h.SameFiles h') ∨
      ¬ IsRecorded h e manifest identity ∧ ∃ r₁ h₁,
        (filePatches e d.files : OnTree _) h = (r₁, h₁) ∧ h₁.SameFiles h' ∧
          ((∃ files, r₁ = .ok files ∧ manifest' = manifest.record identity files ∧
              r = .ok (.applied id files)) ∨
            ∃ cause, r₁ = .error cause ∧ manifest' = manifest ∧ r = .error cause) := by
  unfold descriptor at hrun
  rw [OnTree.bind_apply] at hrun
  rcases hrecorded : (isRecorded e manifest identity : OnTree _) h with ⟨b, h₁⟩
  rw [hrecorded] at hrun
  obtain ⟨rfl, hb⟩ := isRecorded_apply hrecorded
  simp only at hrun
  cases b with
  | true =>
    rw [if_pos rfl, OnTree.bind_apply, OnTree.note_apply] at hrun
    obtain ⟨hm, rfl⟩ := Prod.mk.inj hrun
    obtain ⟨rfl, rfl⟩ := Prod.mk.inj hm
    exact Or.inl ⟨hb.mp rfl, rfl, rfl, rfl, rfl⟩
  | false =>
    rw [if_neg (by simp), OnTree.bind_apply] at hrun
    rcases hfiles : (filePatches e d.files : OnTree _) h₁ with ⟨r₁, h₂⟩
    rw [hfiles] at hrun
    refine Or.inr ⟨fun hr => by simpa using hb.mpr hr, r₁, h₂, rfl, ?_⟩
    cases r₁ with
    | ok files =>
      simp only at hrun
      rw [OnTree.bind_apply, OnTree.note_apply] at hrun
      obtain ⟨hm, rfl⟩ := Prod.mk.inj hrun
      obtain ⟨rfl, rfl⟩ := Prod.mk.inj hm
      exact ⟨⟨rfl, rfl⟩, Or.inl ⟨files, rfl, rfl, rfl⟩⟩
    | error cause =>
      simp only at hrun
      rw [OnTree.bind_apply, OnTree.note_apply] at hrun
      obtain ⟨hm, rfl⟩ := Prod.mk.inj hrun
      obtain ⟨rfl, rfl⟩ := Prod.mk.inj hm
      exact ⟨⟨rfl, rfl⟩, Or.inr ⟨cause, rfl, rfl, rfl⟩⟩

end Apply

/-! ## 2. Attempts -/

/-- A descriptor that is tried on an extension that is open. -/
structure Attempt where
  /-- The root of the extension, without links. -/
  root : Path
  descriptor : Descriptor
  outcome : PatchOutcome
  before : TreeHost
  after : TreeHost

namespace Apply

/-- The attempts on an extension that is open. -/
def attempts (e : Enclosure) (id : String) (source : PatchSource) :
    Manifest → TreeHost → List Descriptor → List Attempt
  | _, _, [] => []
  | manifest, h, d :: rest =>
    let r := (descriptor e id (d.identity source) manifest d : OnTree _) h
    ⟨e.root, d, ⟨d.identity source, id, r.1.2⟩, h, r.2⟩ ::
      attempts e id source r.1.1 r.2 rest

/-- The attempts on the extension of a group; there are none if it cannot be opened. -/
def groupAttempts (find : String → Option InstalledExtension) (source : PatchSource)
    (id : String) (ds : List Descriptor) (h : TreeHost) : List Attempt :=
  match find id with
  | none => []
  | some extension =>
    match ((openTarget extension.root : OnTree _) h).1 with
    | .error _ => []
    | .ok (e, manifest) => attempts e id source manifest h ds

/-- The attempts on the extensions of several groups. -/
def groupsAttempts (find : String → Option InstalledExtension) (source : PatchSource) :
    TreeHost → List (String × List Descriptor) → List Attempt
  | _, [] => []
  | h, (id, ds) :: rest =>
    groupAttempts find source id ds h ++
      groupsAttempts find source ((group find source id ds : OnTree _) h).2 rest

end Apply

/-- A run of the patcher over extensions. -/
structure Run where
  find : String → Option InstalledExtension
  source : PatchSource
  set : PatchSet

namespace Run

/-- What a run reports, and the host after it. -/
def result (r : Run) (h : TreeHost) : ApplyReport × TreeHost :=
  (Apply.patchSet r.find r.source r.set : OnTree _) h

/-- What a run reports. -/
def report (r : Run) (h : TreeHost) : ApplyReport := (r.result h).1

/-- The host after a run. -/
def after (r : Run) (h : TreeHost) : TreeHost := (r.result h).2

/-- The attempts of a run, in order. -/
def attempts (r : Run) (h : TreeHost) : List Attempt :=
  Apply.groupsAttempts r.find r.source h r.set.groups

end Run

/-- The attempts of several runs. -/
def attemptsOf : List Run → TreeHost → List Attempt
  | [], _ => []
  | r :: rest, h => r.attempts h ++ attemptsOf rest (r.after h)

/-- The host after several runs. -/
def afterRuns (runs : List Run) (h : TreeHost) : TreeHost := runs.foldl (fun h r => r.after h) h

/-! ## 3. Extensions -/

namespace Apply

variable {e : Enclosure} {h h' : TreeHost}

/-- Descriptors are tried one after the other, each with the manifest that the one before it left at
hand. -/
theorem descriptors_cons {id : String} {source : PatchSource} {manifest manifest' : Manifest}
    {d : Descriptor} {rest : List Descriptor} {outcomes : List PatchOutcome}
    (hrun : (descriptors e id source manifest (d :: rest) : OnTree _) h =
      ((manifest', outcomes), h')) :
    ∃ manifest₁ r h₁ outcomes₁,
      (descriptor e id (d.identity source) manifest d : OnTree _) h = ((manifest₁, r), h₁) ∧
        (descriptors e id source manifest₁ rest : OnTree _) h₁ = ((manifest', outcomes₁), h') ∧
          outcomes = ⟨d.identity source, id, r⟩ :: outcomes₁ ∧
            attempts e id source manifest h (d :: rest) =
              ⟨e.root, d, ⟨d.identity source, id, r⟩, h, h₁⟩ ::
                attempts e id source manifest₁ h₁ rest := by
  rw [descriptors, OnTree.bind_apply] at hrun
  rw [attempts]
  rcases hd : (descriptor e id (d.identity source) manifest d : OnTree _) h with
    ⟨⟨manifest₁, r⟩, h₁⟩
  rw [hd] at hrun
  simp only at hrun
  rw [OnTree.bind_apply] at hrun
  rcases hrest : (descriptors e id source manifest₁ rest : OnTree _) h₁ with
    ⟨⟨manifest₂, outcomes₁⟩, h₂⟩
  rw [hrest] at hrun
  obtain ⟨hm, rfl⟩ := Prod.mk.inj hrun
  obtain ⟨rfl, rfl⟩ := Prod.mk.inj hm
  exact ⟨manifest₁, r, h₁, outcomes₁, rfl, hrest, rfl, rfl⟩

/-- The attempts on an extension are what is reported of it. -/
theorem outcome_attempts {id : String} {source : PatchSource} :
    ∀ {ds : List Descriptor} {manifest manifest' : Manifest} {h h' : TreeHost}
      {outcomes : List PatchOutcome},
      (descriptors e id source manifest ds : OnTree _) h = ((manifest', outcomes), h') →
        (attempts e id source manifest h ds).map Attempt.outcome = outcomes
  | [], _, _, _, _, _, hrun => by
    obtain ⟨hm, -⟩ := Prod.mk.inj hrun
    exact (Prod.mk.inj hm).2
  | d :: rest, manifest, manifest', h, h', outcomes, hrun => by
    obtain ⟨manifest₁, r, h₁, outcomes₁, -, hrest, rfl, hlog⟩ := descriptors_cons hrun
    rw [hlog, List.map_cons, outcome_attempts hrest]

theorem any_isApplied_eq_false {id : String} {source : PatchSource} {ds : List Descriptor}
    {manifest manifest' : Manifest} {outcomes : List PatchOutcome}
    (hrun : (descriptors e id source manifest ds : OnTree _) h = ((manifest', outcomes), h')) :
    outcomes.any PatchOutcome.isApplied = false ↔
      ∀ a ∈ attempts e id source manifest h ds, a.outcome.isApplied = false := by
  rw [← outcome_attempts hrun, List.any_map, List.any_eq_false]
  simp

/-- **Every way in which trying descriptors on an extension that is open can end.**  The manifest is
written exactly if a descriptor has been applied. -/
theorem openedTarget_cases {id : String} {isActive : Bool} {source : PatchSource}
    {manifest : Manifest} {ds : List Descriptor} {report : ApplyReport}
    (hrun : (openedTarget e manifest id isActive source ds : OnTree _) h = (report, h')) :
    ∃ manifest₁ outcomes h₁,
      (descriptors e id source manifest ds : OnTree _) h = ((manifest₁, outcomes), h₁) ∧
        report.outcomes = outcomes ∧
          ((outcomes.any PatchOutcome.isApplied = false ∧ h' = h₁ ∧ report.targetErrors = []) ∨
            outcomes.any PatchOutcome.isApplied = true ∧ ∃ r h₂,
              (manifest₁.write : OnTree _) h₁ = (r, h₂) ∧ h₂.SameFiles h' ∧
                ((r = .ok () ∧ report.targetErrors = []) ∨
                  ∃ cause, r = .error cause ∧ report.targetErrors = [(id, .record cause)])) := by
  unfold openedTarget at hrun
  rw [OnTree.bind_apply] at hrun
  rcases hds : (descriptors e id source manifest ds : OnTree _) h with ⟨⟨manifest₁, outcomes⟩, h₁⟩
  rw [hds] at hrun
  simp only at hrun
  refine ⟨manifest₁, outcomes, h₁, rfl, ?_⟩
  by_cases hany : outcomes.any PatchOutcome.isApplied = true
  · rw [if_pos hany, OnTree.bind_apply] at hrun
    rcases hwrite : (manifest₁.write : OnTree _) h₁ with ⟨r, h₂⟩
    rw [hwrite] at hrun
    cases r with
    | ok u =>
      obtain ⟨rfl, rfl⟩ := Prod.mk.inj hrun
      exact ⟨rfl, Or.inr ⟨hany, _, _, rfl, .refl _, Or.inl ⟨rfl, rfl⟩⟩⟩
    | error cause =>
      simp only at hrun
      rw [OnTree.bind_apply, OnTree.note_apply] at hrun
      obtain ⟨rfl, rfl⟩ := Prod.mk.inj hrun
      exact ⟨rfl, Or.inr ⟨hany, _, _, rfl, ⟨rfl, rfl⟩, Or.inr ⟨cause, rfl, rfl⟩⟩⟩
  · rw [if_neg hany] at hrun
    obtain ⟨rfl, rfl⟩ := Prod.mk.inj hrun
    exact ⟨rfl, Or.inl ⟨by simpa using hany, rfl, rfl⟩⟩

/-- **Every way in which the group of an extension can end.** -/
theorem group_cases {find : String → Option InstalledExtension} {source : PatchSource}
    {id : String} {ds : List Descriptor} {report : ApplyReport}
    (hrun : (group find source id ds : OnTree _) h = (report, h')) :
    (groupAttempts find source id ds h = [] ∧ h.SameFiles h' ∧
        ∀ o ∈ report.outcomes, o.isNotInstalled = true) ∨
      ∃ extension e manifest, find id = some extension ∧ Opened h extension.root e manifest ∧
        groupAttempts find source id ds h = attempts e id source manifest h ds ∧
          (openedTarget e manifest id extension.isActive source ds : OnTree _) h =
            (report, h') := by
  unfold group at hrun
  unfold groupAttempts
  cases hfind : find id with
  | none =>
    rw [hfind] at hrun
    simp only at hrun
    rw [OnTree.bind_apply, OnTree.note_apply] at hrun
    obtain ⟨rfl, rfl⟩ := Prod.mk.inj hrun
    refine Or.inl ⟨rfl, ⟨rfl, rfl⟩, fun o ho => ?_⟩
    obtain ⟨d, -, rfl⟩ := List.mem_map.mp ho
    rfl
  | some extension =>
    rw [hfind] at hrun
    simp only at hrun
    unfold target at hrun
    rw [OnTree.bind_apply] at hrun
    rcases hopen : (openTarget extension.root : OnTree _) h with ⟨r, h₁⟩
    rw [hopen] at hrun
    obtain ⟨rfl, hopened⟩ := openTarget_apply hopen
    cases r with
    | error cause =>
      simp only at hrun
      rw [OnTree.bind_apply, OnTree.note_apply] at hrun
      obtain ⟨rfl, rfl⟩ := Prod.mk.inj hrun
      exact Or.inl ⟨by simp only [hopen], ⟨rfl, rfl⟩, by simp⟩
    | ok opened =>
      obtain ⟨e, manifest⟩ := opened
      exact Or.inr ⟨extension, e, manifest, rfl, hopened e manifest rfl, by simp only [hopen], hrun⟩

/-- Groups are tried one after the other. -/
theorem groups_cons {find : String → Option InstalledExtension} {source : PatchSource}
    {id : String} {ds : List Descriptor} {rest : List (String × List Descriptor)}
    {report : ApplyReport}
    (hrun : (groups find source ((id, ds) :: rest) : OnTree _) h = (report, h')) :
    ∃ report₁ h₁ report₂, (group find source id ds : OnTree _) h = (report₁, h₁) ∧
      (groups find source rest : OnTree _) h₁ = (report₂, h') ∧ report = report₁.merge report₂ ∧
        groupsAttempts find source h ((id, ds) :: rest) =
          groupAttempts find source id ds h ++ groupsAttempts find source h₁ rest := by
  rw [groups, OnTree.bind_apply] at hrun
  rw [groupsAttempts]
  rcases hgroup : (group find source id ds : OnTree _) h with ⟨report₁, h₁⟩
  rw [hgroup] at hrun
  simp only at hrun
  rw [OnTree.bind_apply] at hrun
  rcases hrest : (groups find source rest : OnTree _) h₁ with ⟨report₂, h₂⟩
  rw [hrest] at hrun
  obtain ⟨rfl, rfl⟩ := Prod.mk.inj hrun
  exact ⟨report₁, h₁, report₂, rfl, hrest, rfl, rfl⟩

/-- The attempts on an extension have its root and its name. -/
theorem root_of_mem_attempts {id : String} {source : PatchSource} {ds : List Descriptor}
    {manifest : Manifest} {h : TreeHost} {a : Attempt}
    (ha : a ∈ attempts e id source manifest h ds) : a.root = e.root ∧ a.outcome.target = id := by
  induction ds generalizing manifest h with
  | nil => simp [attempts] at ha
  | cons d rest ih =>
    rw [attempts] at ha
    rcases List.mem_cons.mp ha with rfl | ha
    · exact ⟨rfl, rfl⟩
    · exact ih ha

/-- No attempt finds its extension not installed. -/
theorem isNotInstalled_attempts {id : String} {source : PatchSource} {ds : List Descriptor}
    {manifest : Manifest} {h : TreeHost} :
    ∀ a ∈ attempts e id source manifest h ds, a.outcome.isNotInstalled = false := by
  induction ds generalizing manifest h with
  | nil => simp [attempts]
  | cons d rest ih =>
    intro a ha
    rw [attempts] at ha
    rcases List.mem_cons.mp ha with rfl | ha
    · rcases hrun : (descriptor e id (d.identity source) manifest d : OnTree _) h with
        ⟨⟨manifest', r⟩, h'⟩
      rcases descriptor_cases hrun with ⟨-, -, rfl, -⟩ | ⟨-, r₁, h₁, -, -, hr⟩
      · rfl
      · rcases hr with ⟨files, -, -, rfl⟩ | ⟨cause, -, -, rfl⟩
        · rfl
        · rfl
    · exact ih a ha

/-- The attempts on the extensions of several groups are what is reported of them. -/
theorem outcome_groupsAttempts {find : String → Option InstalledExtension}
    {source : PatchSource} :
    ∀ {gs : List (String × List Descriptor)} {h h' : TreeHost} {report : ApplyReport},
      (groups find source gs : OnTree _) h = (report, h') →
        (groupsAttempts find source h gs).map Attempt.outcome =
          report.outcomes.filter fun o => !o.isNotInstalled
  | [], _, _, _, hrun => by
    obtain ⟨rfl, -⟩ := Prod.mk.inj hrun
    rfl
  | (id, ds) :: rest, h, h', report, hrun => by
    obtain ⟨report₁, h₁, report₂, hgroup, hrest, rfl, hlog⟩ := groups_cons hrun
    rw [hlog, List.map_append, outcome_groupsAttempts hrest, ApplyReport.merge,
      List.filter_append]
    congr 1
    rcases group_cases hgroup with ⟨hnone, -, hskip⟩ | ⟨extension, e, manifest, -, -, hlog, hopened⟩
    · rw [hnone]
      have hempty : report₁.outcomes.filter (fun o => !o.isNotInstalled) = [] :=
        List.filter_eq_nil_iff.mpr fun o ho => by simp [hskip o ho]
      exact hempty.symm
    · obtain ⟨manifest₁, outcomes, h₂, hds, rfl, -⟩ := openedTarget_cases hopened
      have hall : ∀ o ∈ report₁.outcomes, (!o.isNotInstalled) = true := by
        intro o ho
        rw [← outcome_attempts hds] at ho
        obtain ⟨a, ha, rfl⟩ := List.mem_map.mp ho
        simp [isNotInstalled_attempts a ha]
      rw [List.filter_eq_self.mpr hall, hlog, outcome_attempts hds]

end Apply

/-- **The attempts of a run are what it reports**, but for extensions that are not installed. -/
theorem Run.outcome_attempts (r : Run) (h : TreeHost) :
    (r.attempts h).map Attempt.outcome =
      (r.report h).outcomes.filter fun o => !o.isNotInstalled :=
  Apply.outcome_groupsAttempts (Prod.eta (r.result h)).symm

/-! ## 4. Taking patches back -/

namespace Restore

variable {e : Enclosure} {h h' : TreeHost}

/-- **Files are moved back one after the other**; the first that fails decides. -/
theorem files_step {name : String} {rest : List String}
    {r : Except ApplicationError (List String × List String)}
    (hrun : (files e (name :: rest) : OnTree _) h = (r, h')) :
    (∃ cause, (file e name : OnTree _) h = (.error cause, h') ∧ r = .error cause) ∨
      ∃ hadBackup h₁ r₁, (file e name : OnTree _) h = (.ok hadBackup, h₁) ∧
        (files e rest : OnTree _) h₁ = (r₁, h') ∧
          r = r₁.map fun x => if hadBackup then (name :: x.1, x.2) else (x.1, name :: x.2) := by
  rw [files, OnTree.bind_apply] at hrun
  rcases hfile : (file e name : OnTree _) h with ⟨w, h₁⟩
  rw [hfile] at hrun
  cases w with
  | error cause =>
    obtain ⟨rfl, rfl⟩ := Prod.mk.inj hrun
    exact Or.inl ⟨cause, rfl, rfl⟩
  | ok hadBackup =>
    simp only at hrun
    rw [OnTree.bind_apply] at hrun
    rcases hrest : (files e rest : OnTree _) h₁ with ⟨r₁, h₂⟩
    rw [hrest] at hrun
    refine Or.inr ⟨hadBackup, h₁, r₁, rfl, ?_⟩
    cases r₁ with
    | error cause =>
      obtain ⟨rfl, rfl⟩ := Prod.mk.inj hrun
      exact ⟨hrest, rfl⟩
    | ok x =>
      obtain ⟨rfl, rfl⟩ := Prod.mk.inj hrun
      exact ⟨hrest, rfl⟩

/-- The same, where it does not matter which files had a backup. -/
theorem files_cons {name : String} {rest : List String}
    {r : Except ApplicationError (List String × List String)}
    (hrun : (files e (name :: rest) : OnTree _) h = (r, h')) :
    (∃ cause, (file e name : OnTree _) h = (.error cause, h') ∧ r = .error cause) ∨
      ∃ hadBackup h₁ r₁, (file e name : OnTree _) h = (.ok hadBackup, h₁) ∧
        (files e rest : OnTree _) h₁ = (r₁, h') ∧ ((∃ x, r = .ok x) → ∃ x, r₁ = .ok x) := by
  rcases files_step hrun with hfailed | ⟨hadBackup, h₁, r₁, hfile, hrest, rfl⟩
  · exact Or.inl hfailed
  · refine Or.inr ⟨hadBackup, h₁, r₁, hfile, hrest, ?_⟩
    rintro ⟨x, hx⟩
    cases r₁ with
    | error cause => cases hx
    | ok x₁ => exact ⟨x₁, rfl⟩

/-- How taking patches back can end: the extension has not been opened, or a file has not been moved
back, or the manifest has not been written, or all is well. -/
inductive ExtensionRun (root : Path) (h : TreeHost) :
    Except ApplicationError RestoreReport → TreeHost → Prop
  | unopened {cause : ApplicationError} {h' : TreeHost} (hnot : ∀ e manifest,
      ¬ Opened h root e manifest) (hfiles : h.SameFiles h') : ExtensionRun root h (.error cause) h'
  | failed {e : Enclosure} {manifest : Manifest} {cause : ApplicationError} {h' : TreeHost}
      (ho : Opened h root e manifest)
      (hfiles : (files e manifest.appliedFiles : OnTree _) h = (.error cause, h')) :
      ExtensionRun root h (.error cause) h'
  | unwritten {e : Enclosure} {manifest : Manifest} {x : List String × List String}
      {cause : IoError} {r : ApplicationError} {h₁ h' : TreeHost} (ho : Opened h root e manifest)
      (hfiles : (files e manifest.appliedFiles : OnTree _) h = (.ok x, h₁))
      (hreplace : h₁.tree.replace h₁.working manifest.path manifest.clear.written.toUTF8 =
        .error cause)
      (hsame : h₁.SameFiles h') : ExtensionRun root h (.error r) h'
  | written {e : Enclosure} {manifest : Manifest} {restored missing : List String}
      {h₁ h' : TreeHost} (ho : Opened h root e manifest)
      (hfiles : (files e manifest.appliedFiles : OnTree _) h = (.ok (restored, missing), h₁))
      (hreplace : h₁.tree.replace h₁.working manifest.path manifest.clear.written.toUTF8 =
        .ok h'.tree)
      (hworking : h'.working = h₁.working) :
      ExtensionRun root h (.ok ⟨restored, missing, manifest.applied.length⟩) h'

/-- **Every way in which taking patches back can end.** -/
theorem extensionRun {root : Path} {r : Except ApplicationError RestoreReport}
    (hrun : (extension root : OnTree _) h = (r, h')) : ExtensionRun root h r h' := by
  unfold extension at hrun
  rw [OnTree.bind_apply] at hrun
  rcases hopen : (Apply.openTarget root : OnTree _) h with ⟨o, h₁⟩
  rw [hopen] at hrun
  obtain ⟨rfl, hopened⟩ := Apply.openTarget_apply hopen
  cases o with
  | error cause =>
    obtain ⟨rfl, rfl⟩ := Prod.mk.inj hrun
    refine .unopened (fun e manifest ho => ?_) (.refl _)
    have hok := ho.openTarget_eq
    rw [hopen] at hok
    cases hok
  | ok opened =>
    obtain ⟨e, manifest⟩ := opened
    simp only at hrun
    rw [OnTree.bind_apply] at hrun
    rcases hfiles : (files e manifest.appliedFiles : OnTree _) h₁ with ⟨r₁, h₂⟩
    rw [hfiles] at hrun
    have ho := hopened e manifest rfl
    cases r₁ with
    | error cause =>
      obtain ⟨rfl, rfl⟩ := Prod.mk.inj hrun
      exact .failed ho hfiles
    | ok x =>
      obtain ⟨restored, missing⟩ := x
      simp only at hrun
      rw [OnTree.bind_apply] at hrun
      rcases hwrite : (manifest.clear.write : OnTree _) h₂ with ⟨w, h₃⟩
      rw [hwrite] at hrun
      rcases Manifest.write_apply hwrite with
        ⟨cause, hreplace, rfl, hsame⟩ | ⟨hreplace, rfl, hworking⟩
      · obtain ⟨rfl, rfl⟩ := Prod.mk.inj hrun
        exact .unwritten ho hfiles hreplace hsame
      · simp only at hrun
        rw [OnTree.bind_apply, OnTree.note_apply] at hrun
        obtain ⟨rfl, rfl⟩ := Prod.mk.inj hrun
        exact .written ho hfiles hreplace hworking

/-- Taking patches back, where only its effects on files matter.  If it ends well, all files of the
record have been moved back or had no backup, and the manifest has been written. -/
theorem extension_cases {root : Path} {r : Except ApplicationError RestoreReport}
    (hrun : (extension root : OnTree _) h = (r, h')) :
    (h.SameFiles h' ∧ ∀ report, r ≠ .ok report) ∨
      ∃ e manifest r₁ h₁, Opened h root e manifest ∧
        (files e manifest.appliedFiles : OnTree _) h = (r₁, h₁) ∧
          ((h₁.SameFiles h' ∧ ∀ report, r ≠ .ok report) ∨
            (∃ x, r₁ = .ok x) ∧
              h₁.tree.replace h₁.working manifest.path manifest.clear.written.toUTF8 =
                .ok h'.tree ∧ h'.working = h₁.working) := by
  cases extensionRun hrun with
  | unopened _ hfiles => exact Or.inl ⟨hfiles, by simp⟩
  | failed ho hfiles => exact Or.inr ⟨_, _, _, _, ho, hfiles, Or.inl ⟨.refl _, by simp⟩⟩
  | unwritten ho hfiles _ hsame => exact Or.inr ⟨_, _, _, _, ho, hfiles, Or.inl ⟨hsame, by simp⟩⟩
  | written ho hfiles hreplace hworking =>
    exact Or.inr ⟨_, _, _, _, ho, hfiles, Or.inr ⟨⟨_, rfl⟩, hreplace, hworking⟩⟩

end Restore

end TextPatch
