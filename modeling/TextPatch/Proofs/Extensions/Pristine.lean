/-
# Runs keep the pristine text

The invariant of `Backups` is carried through whole runs: through the file patches of a descriptor,
the descriptors of an extension, the extensions of a run, and from there to any sequence of runs and
restorations (`calls_keep_pristine`).  Every induction is over the list that the patcher itself goes
through.

On the way it is noted that no manifest is touched by a file patch, and which attempts can have made
a backup (`AttemptsKept`): one that has failed, or one that reports the file.  The proof that
restoring undoes applying starts from there.
-/
import TextPatch.Proofs.Extensions.Backups
import TextPatch.Proofs.Extensions.Records

namespace TextPatch

/-- A backup is there. -/
def Tree.HasBackup (t : Tree) (k : Location) (s : String) : Prop :=
  (t.get? (k ++ [s ++ backupSuffix])).isSome

/-- Whether a file of a patch is, by the text of its path, the file `s` in the directory `k`, seen
from the root `l`. -/
def LeadsTo (l : Location) (file : String) (k : Location) (s : String) : Prop :=
  ∃ names, (⟨file⟩ : Path).inside? = some names ∧ l ++ names = k ++ [s]

/-- Descriptors all of whose file patches are ordinary. -/
def Descriptor.Ordinary (d : Descriptor) : Prop := ∀ p ∈ d.files, p.Ordinary

instance (d : Descriptor) : Decidable d.Ordinary :=
  List.decidableBAll FilePatch.Ordinary d.files

variable {t₀ : Tree} {e : Enclosure} {l : Location}

/-! ## 1. Applying -/

/-- What file patches keep, if they end with `r`: the pristine text, and all manifests; a backup
that they have made is one of a file that one of them leads to, and that they report if they end
well. -/
structure FilesKept (t₀ : Tree) (l : Location) (ps : List FilePatch)
    (r : Except ApplicationError (List String)) (h h' : TreeHost) : Prop where
  kept : Kept t₀ h'.tree
  working : h'.working = h.working
  manifests : ∀ q, h'.tree.get? (q ++ [manifestName]) = h.tree.get? (q ++ [manifestName])
  backups : ∀ k s, h'.tree.HasBackup k s → h.tree.HasBackup k s ∨
    ∃ p ∈ ps, LeadsTo l p.file k s ∧ ∀ files, r = .ok files → p.file ∈ files

/-- One file patch. -/
theorem filePatch_kept (ht : t₀.Plain) (hb : t₀.HasNoBackups) {h h' : TreeHost}
    (hk : Kept t₀ h.tree) (hroot : IsRoot t₀ e l) {p : FilePatch} (hp : p.Ordinary)
    {r : Except ApplicationError Bool} (hrun : (Apply.filePatch e p : OnTree _) h = (r, h')) :
    Kept t₀ h'.tree ∧ h'.working = h.working ∧
      (∀ q, h'.tree.get? (q ++ [manifestName]) = h.tree.get? (q ++ [manifestName])) ∧
        ∀ k s, h'.tree.HasBackup k s →
          h.tree.HasBackup k s ∨ LeadsTo l p.file k s ∧ r ≠ .ok false := by
  obtain ⟨hkept, hworking, hchange⟩ := (Apply.fileStep_filePatch hrun).kept ht hb hk hroot hp
  refine ⟨hkept, hworking, ?_⟩
  rcases hchange with ⟨hsame, -⟩ | ⟨hr, k, s, hinside, ⟨hs, hname⟩, hfirst, hframe⟩
  · rw [hsame]
    exact ⟨fun _ => rfl, fun k s hks => Or.inl hks⟩
  · constructor
    · intro q
      refine hframe _ (fun heq => hs (concat_inj heq).2.symm) fun heq => ?_
      exact manifestName_ne_backup s (concat_inj heq).2
    · intro k' s' hks
      by_cases heq : k' ++ [s' ++ backupSuffix] = l ++ k ++ [s ++ backupSuffix]
      · obtain ⟨rfl, hss⟩ := concat_inj heq
        obtain rfl := backup_injective hss
        exact Or.inr ⟨⟨k ++ [s'], hinside, by simp⟩, hr⟩
      · left
        unfold Tree.HasBackup at hks ⊢
        rwa [hframe _ (fun hks' => hname ⟨s', (concat_inj hks').2.symm⟩) heq] at hks

/-- **File patches keep the pristine text.** -/
theorem filePatches_kept (ht : t₀.Plain) (hb : t₀.HasNoBackups) (hroot : IsRoot t₀ e l) :
    ∀ {ps : List FilePatch} {h h' : TreeHost} {r : Except ApplicationError (List String)},
      (∀ p ∈ ps, p.Ordinary) → Kept t₀ h.tree →
      (Apply.filePatches e ps : OnTree _) h = (r, h') → FilesKept t₀ l ps r h h'
  | [], h, h', r, _, hk, hrun => by
    obtain ⟨rfl, rfl⟩ := Prod.mk.inj hrun
    exact ⟨hk, rfl, fun _ => rfl, fun k s hks => Or.inl hks⟩
  | p :: rest, h, h', r, hps, hk, hrun => by
    rcases Apply.filePatches_cons hrun with ⟨cause, hfile, rfl⟩ | ⟨w, h₁, r₁, hfile, hrest, rfl⟩
    · obtain ⟨hk', hworking, hmanifests, hbackups⟩ :=
        filePatch_kept ht hb hk hroot (hps p (by simp)) hfile
      refine ⟨hk', hworking, hmanifests, fun k s hks => ?_⟩
      rcases hbackups k s hks with hold | ⟨hlead, -⟩
      · exact Or.inl hold
      · exact Or.inr ⟨p, by simp, hlead, by simp⟩
    · obtain ⟨hk₁, hworking, hmanifests, hbackups⟩ :=
        filePatch_kept ht hb hk hroot (hps p (by simp)) hfile
      have ih := filePatches_kept ht hb hroot (fun q hq => hps q (by simp [hq])) hk₁ hrest
      refine ⟨ih.kept, ih.working.trans hworking,
        fun q => (ih.manifests q).trans (hmanifests q), fun k s hks => ?_⟩
      rcases ih.backups k s hks with hks | ⟨q, hq, hlead, hfiles⟩
      · rcases hbackups k s hks with hold | ⟨hlead, hw⟩
        · exact Or.inl hold
        · refine Or.inr ⟨p, by simp, hlead, fun files hfiles => ?_⟩
          cases w with
          | false => exact absurd rfl hw
          | true =>
            cases r₁ with
            | error cause => cases hfiles
            | ok files₁ =>
              cases hfiles
              simp
      · refine Or.inr ⟨q, by simp [hq], hlead, fun files hr => ?_⟩
        cases r₁ with
        | error cause => cases hr
        | ok files₁ =>
          cases hr
          have hmem := hfiles files₁ rfl
          cases w with
          | false => exact hmem
          | true => exact List.mem_cons_of_mem _ hmem

/-- The text of a path leads an attempt to the file `s` in the directory `k`. -/
def Attempt.LeadsTo (a : Attempt) (file : String) (k : Location) (s : String) : Prop :=
  (Enclosure.mk a.root).place ⟨file⟩ = .ok (Path.ofNames (k ++ [s]))

/-- An attempt has failed, and one of its file patches leads to the file `s` in the directory
`k`. -/
def Attempt.Failed (a : Attempt) (k : Location) (s : String) : Prop :=
  a.outcome.isFailure = true ∧ ∃ p ∈ a.descriptor.files, a.LeadsTo p.file k s

/-- An attempt has been applied, and it reports the file `s` in the directory `k` as written. -/
def Attempt.Wrote (a : Attempt) (k : Location) (s : String) : Prop :=
  ∃ target files, a.outcome.result = .ok (.applied target files) ∧
    ∃ file ∈ files, a.LeadsTo file k s

/-- What attempts keep: the pristine text, and all manifests; a backup that they have made is one of
a file that one of them leads to. -/
structure AttemptsKept (t₀ : Tree) (as : List Attempt) (h h' : TreeHost) : Prop where
  kept : Kept t₀ h'.tree
  working : h'.working = h.working
  manifests : ∀ q, h'.tree.get? (q ++ [manifestName]) = h.tree.get? (q ++ [manifestName])
  backups : ∀ k s, h'.tree.HasBackup k s → h.tree.HasBackup k s ∨
    ∃ a ∈ as, a.Failed k s ∨ a.Wrote k s

theorem AttemptsKept.of_sameFiles {as : List Attempt} {h h' : TreeHost} (hk : Kept t₀ h.tree)
    (hsame : h.SameFiles h') : AttemptsKept t₀ as h h' where
  kept := by
    rw [hsame.1]
    exact hk
  working := hsame.2
  manifests q := by rw [hsame.1]
  backups k s hks := by
    rw [hsame.1] at hks
    exact Or.inl hks

theorem AttemptsKept.append {as bs : List Attempt} {h h₁ h' : TreeHost}
    (a : AttemptsKept t₀ as h h₁) (b : AttemptsKept t₀ bs h₁ h') :
    AttemptsKept t₀ (as ++ bs) h h' where
  kept := b.kept
  working := b.working.trans a.working
  manifests q := (b.manifests q).trans (a.manifests q)
  backups k s hks := by
    rcases b.backups k s hks with hks | ⟨x, hx, hlead⟩
    · rcases a.backups k s hks with hold | ⟨x, hx, hlead⟩
      · exact Or.inl hold
      · exact Or.inr ⟨x, List.mem_append_left _ hx, hlead⟩
    · exact Or.inr ⟨x, List.mem_append_right _ hx, hlead⟩

/-- A descriptor keeps the pristine text. -/
theorem descriptor_kept (ht : t₀.Plain) (hb : t₀.HasNoBackups) (hroot : IsRoot t₀ e l)
    {id identity : String} {manifest manifest' : Manifest} {d : Descriptor} {h h' : TreeHost}
    {r : Except ApplicationError PatchResult} (hd : d.Ordinary) (hk : Kept t₀ h.tree)
    (hrun : (Apply.descriptor e id identity manifest d : OnTree _) h = ((manifest', r), h')) :
    AttemptsKept t₀ [⟨e.root, d, ⟨identity, id, r⟩, h, h'⟩] h h' := by
  rcases Apply.descriptor_cases hrun with ⟨-, -, -, hsame⟩ | ⟨-, r₁, h₁, hfiles, hsame, hr⟩
  · exact .of_sameFiles hk hsame
  · have hkept := filePatches_kept ht hb hroot hd hk hfiles
    refine ⟨hsame.1 ▸ hkept.kept, hsame.2.trans hkept.working, fun q => ?_, fun k s hks => ?_⟩
    · rw [hsame.1, hkept.manifests q]
    · rw [hsame.1] at hks
      rcases hkept.backups k s hks with hold | ⟨p, hp, ⟨names, hinside, hnames⟩, hreported⟩
      · exact Or.inl hold
      · have hlead : e.place ⟨p.file⟩ = .ok (Path.ofNames (k ++ [s])) :=
          (Enclosure.place_eq_ok hroot.root_eq hroot.names).mpr ⟨names, hinside, by rw [hnames]⟩
        refine Or.inr ⟨_, List.mem_singleton_self _, ?_⟩
        rcases hr with ⟨files, rfl, -, rfl⟩ | ⟨cause, rfl, -, rfl⟩
        · exact Or.inr ⟨id, files, rfl, p.file, hreported files rfl, hlead⟩
        · exact Or.inl ⟨rfl, p, hp, hlead⟩

/-- **Attempts keep the pristine text.** -/
theorem descriptors_kept (ht : t₀.Plain) (hb : t₀.HasNoBackups) (hroot : IsRoot t₀ e l)
    {id : String} {source : PatchSource} :
    ∀ {ds : List Descriptor} {manifest manifest' : Manifest} {h h' : TreeHost}
      {outcomes : List PatchOutcome}, (∀ d ∈ ds, d.Ordinary) → Kept t₀ h.tree →
      (Apply.descriptors e id source manifest ds : OnTree _) h = ((manifest', outcomes), h') →
      AttemptsKept t₀ (Apply.attempts e id source manifest h ds) h h'
  | [], manifest, manifest', h, h', outcomes, _, hk, hrun => by
    obtain ⟨-, rfl⟩ := Prod.mk.inj hrun
    exact .of_sameFiles hk (.refl h)
  | d :: rest, manifest, manifest', h, h', outcomes, hds, hk, hrun => by
    obtain ⟨manifest₁, r, h₁, outcomes₁, hd, hrest, -, hlog⟩ := Apply.descriptors_cons hrun
    have hone := descriptor_kept ht hb hroot (hds d (by simp)) hk hd
    have ih := descriptors_kept ht hb hroot (fun d hd => hds d (by simp [hd])) hone.kept hrest
    rw [hlog]
    exact hone.append ih

/-- The group of an extension keeps the pristine text. -/
theorem group_kept (ht : t₀.Plain) (hb : t₀.HasNoBackups)
    {find : String → Option InstalledExtension} {source : PatchSource} {id : String}
    {ds : List Descriptor} {h h' : TreeHost} {report : ApplyReport}
    (hds : ∀ d ∈ ds, d.Ordinary) (hk : Kept t₀ h.tree)
    (hrun : (Apply.group find source id ds : OnTree _) h = (report, h')) : Kept t₀ h'.tree := by
  rcases Apply.group_cases hrun with ⟨-, hsame, -⟩ | ⟨extension, e, manifest, -, ho, -, hopened⟩
  · rw [hsame.1]
    exact hk
  · obtain ⟨l, hroot⟩ := ho.isRoot ht hk
    obtain ⟨manifest₁, outcomes, h₁, hrun₁, -, hend⟩ := Apply.openedTarget_cases hopened
    have hk₁ := (descriptors_kept ht hb hroot hds hk hrun₁).kept
    have hpath := (Apply.descriptors_recorded hrun₁).path_eq
    rcases hend with ⟨-, rfl, -⟩ | ⟨-, r, h₂, hwrite, hsame, -⟩
    · exact hk₁
    · rw [hsame.1]
      rcases Manifest.write_apply hwrite with ⟨-, -, -, hsame₂⟩ | ⟨hreplace, -, -⟩
      · rw [hsame₂.1]
        exact hk₁
      · rw [hpath, ho.path_eq, hroot.manifest_path] at hreplace
        exact (hk₁.replace_manifest ht hroot hreplace).1

theorem groups_kept (ht : t₀.Plain) (hb : t₀.HasNoBackups)
    {find : String → Option InstalledExtension} {source : PatchSource} :
    ∀ {gs : List (String × List Descriptor)} {h h' : TreeHost} {report : ApplyReport},
      (∀ g ∈ gs, ∀ d ∈ g.2, d.Ordinary) → Kept t₀ h.tree →
      (Apply.groups find source gs : OnTree _) h = (report, h') → Kept t₀ h'.tree
  | [], h, h', report, _, hk, hrun => by
    obtain ⟨-, rfl⟩ := Prod.mk.inj hrun
    exact hk
  | (id, ds) :: rest, h, h', report, hgs, hk, hrun => by
    obtain ⟨report₁, h₁, report₂, hgroup, hrest, -, -⟩ := Apply.groups_cons hrun
    have hk₁ := group_kept ht hb (hgs (id, ds) (by simp)) hk hgroup
    exact groups_kept ht hb (fun g hg => hgs g (by simp [hg])) hk₁ hrest

/-! ## 2. The descriptors of a set -/

/-- A patch set whose descriptors for extensions have ordinary file patches only. -/
def PatchSet.Ordinary (s : PatchSet) : Prop := ∀ d ∈ s.forExtensions, d.Ordinary

instance (s : PatchSet) : Decidable s.Ordinary :=
  List.decidableBAll Descriptor.Ordinary s.forExtensions

/-- Adding a descriptor to a group adds nothing else. -/
theorem mem_of_mem_addToGroup {d : Descriptor} {id : String} :
    ∀ {gs : List (String × List Descriptor)} {g : String × List Descriptor} {x : Descriptor},
      g ∈ addToGroup d id gs → x ∈ g.2 → x = d ∨ ∃ g' ∈ gs, x ∈ g'.2
  | [], g, x, hg, hx => by
    obtain rfl : g = (id, [d]) := by simpa [addToGroup] using hg
    exact Or.inl (by simpa using hx)
  | (k, ds) :: rest, g, x, hg, hx => by
    rw [addToGroup] at hg
    split at hg
    · rcases List.mem_cons.mp hg with rfl | hg
      · rcases List.mem_append.mp hx with hx | hx
        · exact Or.inr ⟨(k, ds), by simp, hx⟩
        · exact Or.inl (by simpa using hx)
      · exact Or.inr ⟨g, by simp [hg], hx⟩
    · rcases List.mem_cons.mp hg with rfl | hg
      · exact Or.inr ⟨(k, ds), by simp, hx⟩
      · rcases mem_of_mem_addToGroup hg hx with rfl | ⟨g', hg', hx'⟩
        · exact Or.inl rfl
        · exact Or.inr ⟨g', by simp [hg'], hx'⟩

/-- The groups of a set are made of its descriptors. -/
theorem mem_of_mem_groups {s : PatchSet} {g : String × List Descriptor} {x : Descriptor}
    (hg : g ∈ s.groups) (hx : x ∈ g.2) : x ∈ s.forExtensions := by
  have hinner : ∀ (d : Descriptor) (ids : List String) (gs : List (String × List Descriptor)),
      (∀ g ∈ gs, ∀ x ∈ g.2, x ∈ s.forExtensions) → d ∈ s.forExtensions →
        ∀ g ∈ ids.foldl (fun gs id => addToGroup d id gs) gs, ∀ x ∈ g.2, x ∈ s.forExtensions := by
    intro d ids
    induction ids with
    | nil => exact fun gs hgs _ => hgs
    | cons id ids ih =>
      intro gs hgs hd
      refine ih _ (fun g hg x hx => ?_) hd
      rcases mem_of_mem_addToGroup hg hx with rfl | ⟨g', hg', hx'⟩
      · exact hd
      · exact hgs g' hg' x hx'
  have houter : ∀ (ds : List Descriptor) (gs : List (String × List Descriptor)),
      (∀ d ∈ ds, d ∈ s.forExtensions) → (∀ g ∈ gs, ∀ x ∈ g.2, x ∈ s.forExtensions) →
        ∀ g ∈ ds.foldl (fun groups d =>
          d.target.extensionIds.foldl (fun groups id => addToGroup d id groups) groups) gs,
          ∀ x ∈ g.2, x ∈ s.forExtensions := by
    intro ds
    induction ds with
    | nil => exact fun gs _ hgs => hgs
    | cons d ds ih =>
      intro gs hds hgs
      exact ih _ (fun x hx => hds x (by simp [hx]))
        (hinner d _ gs hgs (hds d (by simp)))
  exact houter s.forExtensions [] (fun d hd => hd) (by simp) g hg x hx

/-- **A run keeps the pristine text.** -/
theorem Run.kept (ht : t₀.Plain) (hb : t₀.HasNoBackups) {r : Run} {h : TreeHost}
    (hr : r.set.Ordinary) (hk : Kept t₀ h.tree) : Kept t₀ (r.after h).tree :=
  groups_kept ht hb (fun _ hg d hd => hr d (mem_of_mem_groups hg hd)) hk
    (Prod.eta (r.result h)).symm

theorem Run.kept_runs (ht : t₀.Plain) (hb : t₀.HasNoBackups) :
    ∀ {runs : List Run} {h : TreeHost}, (∀ r ∈ runs, r.set.Ordinary) → Kept t₀ h.tree →
      Kept t₀ (afterRuns runs h).tree
  | [], _, _, hk => hk
  | r :: rest, h, hruns, hk => by
    have hk₁ := Run.kept ht hb (hruns r (by simp)) hk
    change Kept t₀ (afterRuns rest (r.after h)).tree
    exact Run.kept_runs ht hb (fun r hr => hruns r (by simp [hr])) hk₁

/-! ## 3. Taking patches back -/

/-- Moving files back keeps the pristine text and makes no backup.  If it ends well, the files that
the names lead to have no backup left. -/
theorem files_kept (ht : t₀.Plain) (hb : t₀.HasNoBackups) (hroot : IsRoot t₀ e l) :
    ∀ {names : List String} {h h' : TreeHost}
      {r : Except ApplicationError (List String × List String)}, Kept t₀ h.tree →
      (Restore.files e names : OnTree _) h = (r, h') →
      Kept t₀ h'.tree ∧ (∀ k s, h'.tree.HasBackup k s → h.tree.HasBackup k s) ∧
        ((∃ x, r = .ok x) → ∀ name ∈ names, ∀ k s, LeadsTo l name k s → ¬ h'.tree.HasBackup k s)
  | [], h, h', r, hk, hrun => by
    obtain ⟨-, rfl⟩ := Prod.mk.inj hrun
    exact ⟨hk, fun _ _ hks => hks, by simp⟩
  | name :: rest, h, h', r, hk, hrun => by
    rcases Restore.files_cons hrun with ⟨cause, hfile, rfl⟩ | ⟨w, h₁, r₁, hfile, hrest, hok⟩
    · obtain ⟨hk', -, hless, -⟩ := (Restore.restoreStep_file hfile).kept ht hb hk hroot
      exact ⟨hk', hless, by simp⟩
    · obtain ⟨hk₁, -, hless, hgone⟩ := (Restore.restoreStep_file hfile).kept ht hb hk hroot
      obtain ⟨hk', hless', hgone'⟩ := files_kept ht hb hroot hk₁ hrest
      refine ⟨hk', fun k s hks => hless k s (hless' k s hks), fun hr x hx k s hlead hks => ?_⟩
      rcases List.mem_cons.mp hx with rfl | hx
      · obtain ⟨names, hinside, hnames⟩ := hlead
        have hnone := hgone w rfl names k s hinside hnames
        have hks₁ := hless' k s hks
        unfold Tree.HasBackup at hks₁
        rw [hnone] at hks₁
        cases hks₁
      · exact hgone' (hok hr) x hx k s hlead hks

/-- **Taking patches back keeps the pristine text.** -/
theorem extension_kept (ht : t₀.Plain) (hb : t₀.HasNoBackups) {root : Path} {h : TreeHost}
    (hk : Kept t₀ h.tree) : Kept t₀ ((Restore.extension root : OnTree _) h).2.tree := by
  rcases hrun : (Restore.extension root : OnTree _) h with ⟨r, h'⟩
  rcases Restore.extension_cases hrun with ⟨hsame, -⟩ | ⟨e, manifest, r₁, h₁, ho, hfiles, hend⟩
  · rw [hsame.1]
    exact hk
  · obtain ⟨l, hroot⟩ := ho.isRoot ht hk
    have hk₁ := (files_kept ht hb hroot hk hfiles).1
    rcases hend with ⟨hsame, -⟩ | ⟨-, hreplace, -⟩
    · rw [hsame.1]
      exact hk₁
    · have hpath : manifest.path = Path.ofNames (l ++ [manifestName]) := by
        rw [ho.path_eq, hroot.manifest_path]
      rw [hpath] at hreplace
      exact (hk₁.replace_manifest ht hroot hreplace).1

/-! ## 4. Sequences of calls -/

/-- A call of the patcher. -/
inductive Call where
  | apply (run : Run)
  | restore (root : Path)

/-- The host after a call. -/
def Call.after (h : TreeHost) : Call → TreeHost
  | .apply run => run.after h
  | .restore root => ((Restore.extension root : OnTree _) h).2

/-- A call that applies ordinary patches or takes patches back. -/
def Call.Ordinary : Call → Prop
  | .apply run => run.set.Ordinary
  | .restore _ => True

/-- **The pristine text is never lost**, by whatever calls, whatever succeeds or fails. -/
theorem calls_keep_pristine {h : TreeHost} (ht : h.tree.Plain) (hb : h.tree.HasNoBackups)
    (calls : List Call) (hcalls : ∀ c ∈ calls, c.Ordinary) :
    Kept h.tree (calls.foldl Call.after h).tree := by
  have hrun : ∀ (calls : List Call) (h₁ : TreeHost), (∀ c ∈ calls, c.Ordinary) →
      Kept h.tree h₁.tree → Kept h.tree (calls.foldl Call.after h₁).tree := by
    intro calls
    induction calls with
    | nil => exact fun h₁ _ hk => hk
    | cons c calls ih =>
      intro h₁ hcalls hk
      refine ih _ (fun c hc => hcalls c (by simp [hc])) ?_
      cases c with
      | apply run => exact Run.kept ht hb (hcalls (.apply run) (by simp)) hk
      | restore root => exact extension_kept ht hb hk
  exact hrun calls h hcalls (Kept.refl hb)

/-- An extension with one file. -/
def oneFileTree : Tree where
  entries := [(["x"], .directory), (["x", "package.json"], .file "\x7b\x7d".toUTF8),
    (["x", "a.js"], .file "one".toUTF8)]

/-- A file patch that inserts `two` behind the first `one` of a file. -/
def insertTwo (file : String) : FilePatch :=
  ⟨file, none, [⟨.one "one", none, some "two", none, none, none, none, none⟩]⟩

def oneFileSet : PatchSet where
  descriptors := [⟨.extensions (.one "p.x"), [insertTwo "a.js"]⟩]

/-- A run that finds the extension at its root. -/
def oneFileRun : Run where
  find := fun id => some ⟨id, ⟨"/x"⟩, false⟩
  source := .here
  set := oneFileSet

theorem oneFile_keeps_pristine :
    oneFileTree.Plain ∧ oneFileTree.HasNoBackups ∧ oneFileSet.Ordinary ∧
      Kept oneFileTree ([Call.apply oneFileRun, .restore ⟨"/x"⟩].foldl Call.after
        (.ofTree oneFileTree)).tree := by
  have ht : oneFileTree.Plain := Tree.plain_of_isPlain (by decide +kernel)
  have hb : oneFileTree.HasNoBackups := Tree.hasNoBackups_of_lacksBackups (by decide +kernel)
  have hs : oneFileSet.Ordinary := by decide +kernel
  refine ⟨ht, hb, hs, calls_keep_pristine (h := .ofTree oneFileTree) ht hb _ ?_⟩
  intro c hc
  simp only [List.mem_cons, List.not_mem_nil, or_false] at hc
  rcases hc with rfl | rfl
  · exact hs
  · trivial

end TextPatch
