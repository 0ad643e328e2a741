/-
# Restoring undoes applying

After any runs on a plain tree without backups, a restoration that ends well leaves every file but
the manifests with its first content and without a backup, unless no descriptor that has been
applied reports the file (`restore_undoes_runs`).  The exception is needed: what a failed descriptor
has written stays written and is not recorded (`failed_descriptor_stays`).

The proof follows three things through the runs (`Accounted`): every backup has been made by an
attempt that has failed or by one that reports the file; every attempt that has been applied is in
the record on disk; and the pristine text is kept.  The record reaches the disk because the manifest
that has been read can be replaced (`Kept.exists_replace`).
-/
import TextPatch.Proofs.Extensions.Pristine

namespace TextPatch

variable {t₀ : Tree} {l : Location} {log : List Attempt}

/-! ## 1. What is known after some attempts -/

/-- A manifest is what is read from the file of that name in a directory. -/
def Tree.HoldsManifest (t : Tree) (l : Location) (d : Manifest) : Prop :=
  ∃ b text, t.get? (l ++ [manifestName]) = some (.file b) ∧ Host.decodeText b = .ok text ∧
    Manifest.ofText d.path text = .ok d

/-- What is known of a tree `t₀` that has become `t` by the attempts `log`, with regard to the
extension at `l`. -/
structure Accounted (t₀ : Tree) (l : Location) (log : List Attempt) (t : Tree) : Prop where
  kept : Kept t₀ t
  backups : ∀ k s, t.HasBackup k s → ∃ a ∈ log, a.Failed k s ∨ a.Wrote k s
  recorded : ∀ d, t.HoldsManifest l d → ∀ a ∈ log, a.root = Path.ofNames l →
    ∀ target files, a.outcome.result = .ok (.applied target files) →
      (a.outcome.identity, files) ∈ d.applied

/-- The manifest of an extension that has been opened is the one in its root. -/
theorem Opened.holdsManifest (ht : t₀.Plain) {h : TreeHost} (hk : Kept t₀ h.tree) {e : Enclosure}
    (hroot : IsRoot t₀ e l) {root : Path} {d : Manifest} (ho : Opened h root e d) :
    h.tree.HoldsManifest l d ∧ d.path = Path.ofNames (l ++ [manifestName]) ∧ d.Distinct ∧
      ∃ b, h.tree.read h.working (Path.ofNames (l ++ [manifestName])) = .ok b := by
  obtain ⟨b, text, hread, hdecode, htext⟩ := ho.read_eq
  have hpath : d.path = Path.ofNames (l ++ [manifestName]) := by
    rw [ho.path_eq, hroot.manifest_path]
  have hnames : AreNames (l ++ [manifestName]) :=
    hroot.names.append (by simpa [AreNames] using manifestName_isName)
  have hread' := hread
  rw [hpath] at hread'
  obtain ⟨q, hlocate, hget⟩ := Tree.read_eq_ok_iff.mp hread'
  obtain ⟨rfl, -⟩ := (Tree.locate_ofNames_iff (hk.plain ht).no_link hnames).mp hlocate
  exact ⟨⟨b, text, hget, hdecode, htext⟩, hpath, Manifest.distinct_of_ofText htext, b, hread'⟩

/-- What a manifest that has been written to its place is read as. -/
theorem Tree.HoldsManifest.applied_eq {t : Tree} {d d' : Manifest} (hd : d.Distinct)
    (h : (t.set (l ++ [manifestName]) (.file d.written.toUTF8)).HoldsManifest l d') :
    d'.applied = d.applied := by
  obtain ⟨b, text, hget, hdecode, htext⟩ := h
  rw [Tree.get?_set_self t _ (by simp)] at hget
  cases hget
  obtain rfl := Host.eq_of_decodeText hdecode
  exact Manifest.applied_of_written hd htext

/-- Replacing a manifest makes no backup. -/
theorem Tree.hasBackup_set_manifest {t : Tree} {e : Entry} {k : Location} {s : String} :
    (t.set (l ++ [manifestName]) e).HasBackup k s ↔ t.HasBackup k s := by
  unfold Tree.HasBackup
  rw [Tree.get?_set_ne]
  exact fun heq => manifestName_ne_backup s (concat_inj heq).2.symm

/-! ## 2. Through the runs -/

variable {find : String → Option InstalledExtension} {source : PatchSource} {h h' : TreeHost}

/-- Attempts make backups of what they fail to patch or report as written. -/
theorem AttemptsKept.backups_append {as : List Attempt} (hkept : AttemptsKept t₀ as h h')
    (hold : ∀ k s, h.tree.HasBackup k s → ∃ a ∈ log, a.Failed k s ∨ a.Wrote k s) :
    ∀ k s, h'.tree.HasBackup k s → ∃ a ∈ log ++ as, a.Failed k s ∨ a.Wrote k s := by
  intro k s hks
  rcases hkept.backups k s hks with hks | ⟨a, ha, hlead⟩
  · obtain ⟨a, ha, hlead⟩ := hold k s hks
    exact ⟨a, List.mem_append_left _ ha, hlead⟩
  · exact ⟨a, List.mem_append_right _ ha, hlead⟩

/-- A manifest that could be read before some attempts is written after them. -/
theorem AttemptsKept.write_manifest {as : List Attempt} {e : Enclosure} {d : Manifest}
    {b : ByteArray} {r : Except RecordError Unit} {h₁ : TreeHost} (ht : t₀.Plain)
    (hk : Kept t₀ h.tree) (hroot : IsRoot t₀ e l) (hkept : AttemptsKept t₀ as h h₁)
    (hread : h.tree.read h.working (Path.ofNames (l ++ [manifestName])) = .ok b)
    (hpath : d.path = Path.ofNames (l ++ [manifestName]))
    (hwrite : (d.write : OnTree _) h₁ = (r, h')) :
    h'.tree = h₁.tree.set (l ++ [manifestName]) (.file d.written.toUTF8) ∧ Kept t₀ h'.tree := by
  have hreplace := hk.exists_replace ht hkept.kept hroot (hkept.manifests l) hread
    d.written.toUTF8
  rw [← hkept.working] at hreplace
  have htree : h'.tree = h₁.tree.set (l ++ [manifestName]) (.file d.written.toUTF8) := by
    rcases Manifest.write_apply hwrite with ⟨cause, herror, -⟩ | ⟨hok, -, -⟩
    · rw [hpath, hreplace] at herror
      cases herror
    · rw [hpath, hreplace] at hok
      exact (Except.ok.inj hok).symm
  rw [htree]
  exact ⟨rfl, (hkept.kept.replace_manifest ht hroot hreplace).1⟩

/-- **The group of an extension is accounted for.** -/
theorem Accounted.group (ht : t₀.Plain) (hb : t₀.HasNoBackups) (hl : AreNames l)
    (hacc : Accounted t₀ l log h.tree) {id : String} {ds : List Descriptor} {report : ApplyReport}
    (hds : ∀ d ∈ ds, d.Ordinary)
    (hrun : (Apply.group find source id ds : OnTree _) h = (report, h')) :
    Accounted t₀ l (log ++ Apply.groupAttempts find source id ds h) h'.tree := by
  rcases Apply.group_cases hrun with ⟨hnone, hsame, -⟩ | ⟨x, e, manifest, -, ho, hlog, hopened⟩
  · rw [hnone, List.append_nil, hsame.1]
    exact hacc
  obtain ⟨l', hroot⟩ := ho.isRoot ht hacc.kept
  obtain ⟨hheld, hpath, hdistinct, b, hread⟩ := ho.holdsManifest ht hacc.kept hroot
  obtain ⟨manifest₁, outcomes, h₁, hrun₁, -, hend⟩ := Apply.openedTarget_cases hopened
  have hkept := descriptors_kept ht hb hroot hds hacc.kept hrun₁
  have hrec := Apply.descriptors_recorded hrun₁
  have hbackups := hkept.backups_append hacc.backups
  rw [hlog]
  -- up to the end of the group, the manifests are the ones that it has found
  have hholds : ∀ {k : Location} {d : Manifest},
      h₁.tree.HoldsManifest k d → h.tree.HoldsManifest k d := by
    rintro k d ⟨c, text, hget, hdecode, htext⟩
    exact ⟨c, text, (hkept.manifests k).symm.trans hget, hdecode, htext⟩
  rcases hend with ⟨hnone, rfl, -⟩ | ⟨-, r, h₂, hwrite, hsame, -⟩
  · refine ⟨hkept.kept, hbackups, fun d hd a ha haroot target files hres => ?_⟩
    rcases List.mem_append.mp ha with ha | ha
    · exact hacc.recorded d (hholds hd) a ha haroot target files hres
    · have hnot := (Apply.any_isApplied_eq_false hrun₁).mp hnone a ha
      simp [PatchOutcome.isApplied, hres] at hnot
  · obtain ⟨htree, hkept'⟩ := hkept.write_manifest ht hacc.kept hroot hread
      (hrec.path_eq.trans hpath) hwrite
    rw [← hsame.1] at htree hkept'
    refine ⟨hkept', fun k s hks => ?_, fun d hd a ha haroot target files hres => ?_⟩
    · rw [htree] at hks
      exact hbackups k s (Tree.hasBackup_set_manifest.mp hks)
    · rw [htree] at hd
      by_cases hll : l = l'
      · subst hll
        rw [hd.applied_eq (hrec.distinct hdistinct)]
        rcases List.mem_append.mp ha with ha | ha
        · exact hrec.grows _ (hacc.recorded manifest hheld a ha haroot target files hres)
        · exact hrec.entered a ha target files hres
      · rcases List.mem_append.mp ha with ha | ha
        · refine hacc.recorded d (hholds ?_) a ha haroot target files hres
          obtain ⟨c, text, hget, hdecode, htext⟩ := hd
          rw [Tree.get?_set_ne _ _ (fun heq => hll (concat_inj heq).1)] at hget
          exact ⟨c, text, hget, hdecode, htext⟩
        · -- this group is about another extension
          rw [(Apply.root_of_mem_attempts ha).1, hroot.root_eq] at haroot
          exact absurd (Path.ofNames_injective hroot.names hl haroot).symm hll

theorem Accounted.groups (ht : t₀.Plain) (hb : t₀.HasNoBackups) (hl : AreNames l) :
    ∀ {gs : List (String × List Descriptor)} {log : List Attempt} {h h' : TreeHost}
      {report : ApplyReport}, Accounted t₀ l log h.tree → (∀ g ∈ gs, ∀ d ∈ g.2, d.Ordinary) →
      (Apply.groups find source gs : OnTree _) h = (report, h') →
      Accounted t₀ l (log ++ Apply.groupsAttempts find source h gs) h'.tree
  | [], log, h, h', report, hacc, _, hrun => by
    obtain ⟨-, rfl⟩ := Prod.mk.inj hrun
    rw [Apply.groupsAttempts, List.append_nil]
    exact hacc
  | (id, ds) :: rest, log, h, h', report, hacc, hgs, hrun => by
    obtain ⟨report₁, h₁, report₂, hgroup, hrest, -, hlog⟩ := Apply.groups_cons hrun
    have hacc₁ := hacc.group ht hb hl (hgs (id, ds) (by simp)) hgroup
    rw [hlog, ← List.append_assoc]
    exact hacc₁.groups ht hb hl (fun g hg => hgs g (by simp [hg])) hrest

/-- **All that runs do is accounted for.** -/
theorem Accounted.runs (ht : t₀.Plain) (hb : t₀.HasNoBackups) (hl : AreNames l) :
    ∀ {runs : List Run} {log : List Attempt} {h : TreeHost}, Accounted t₀ l log h.tree →
      (∀ r ∈ runs, r.set.Ordinary) →
      Accounted t₀ l (log ++ attemptsOf runs h) (afterRuns runs h).tree
  | [], log, h, hacc, _ => by
    rw [attemptsOf, List.append_nil]
    exact hacc
  | r :: rest, log, h, hacc, hruns => by
    have hgs : ∀ g ∈ r.set.groups, ∀ d ∈ g.2, d.Ordinary :=
      fun g hg d hd => hruns r (by simp) d (mem_of_mem_groups hg hd)
    have hacc₁ := hacc.groups ht hb hl hgs (Prod.eta (r.result h)).symm
    rw [attemptsOf, ← List.append_assoc]
    exact hacc₁.runs ht hb hl fun r hr => hruns r (by simp [hr])

/-! ## 3. Restoring -/

/-- What is left of the attempts `log` on a tree `t₀` when the extension at a root has been
restored, which gave the tree `t`. -/
structure Undone (t₀ t : Tree) (root : Path) (log : List Attempt) : Prop where
  /-- A file other than a manifest has its first content or a backup. -/
  file : ∀ k s b, s ≠ manifestName → t₀.get? (k ++ [s]) = some (.file b) →
    t.get? (k ++ [s]) = some (.file b) ∨ t.HasBackup k s
  /-- A backup that is left holds the first content of its file. -/
  backup : ∀ k s e, t.get? (k ++ [s ++ backupSuffix]) = some e →
    ∃ b, t₀.get? (k ++ [s]) = some (.file b) ∧ e = .file b
  /-- No backup is left of a file that a descriptor reports that has been applied here. -/
  reported : ∀ k s, t.HasBackup k s → ∀ a ∈ log, a.root = root → ¬ a.Wrote k s
  /-- A backup that is left has been made by a descriptor that failed, or for another extension. -/
  cause : ∀ k s, t.HasBackup k s → ∃ a ∈ log, a.Failed k s ∨ a.root ≠ root ∧ a.Wrote k s

/-- **Restoring undoes applying**, but for files that only failed descriptors have touched. -/
theorem restore_undoes_runs {h h' : TreeHost} (ht : h.tree.Plain) (hb : h.tree.HasNoBackups)
    (runs : List Run) (hruns : ∀ r ∈ runs, r.set.Ordinary) {root : Path} {report : RestoreReport}
    (hrestore : (Restore.extension root : OnTree _) (afterRuns runs h) = (.ok report, h')) :
    ∃ place, (afterRuns runs h).tree.canonicalPath (afterRuns runs h).working root = .ok place ∧
      Undone h.tree h'.tree place (attemptsOf runs h) := by
  rcases Restore.extension_cases hrestore with ⟨-, hnot⟩ | ⟨e, manifest, r₁, h₁, ho, hfiles, hend⟩
  · exact absurd rfl (hnot report)
  have hkept := Run.kept_runs ht hb hruns (Kept.refl hb)
  obtain ⟨l, hroot⟩ := ho.isRoot ht hkept
  have hacc : Accounted h.tree l (attemptsOf runs h) (afterRuns runs h).tree := by
    have hstart : Accounted h.tree l [] h.tree := by
      refine ⟨Kept.refl hb, fun k s hks => ?_, by simp⟩
      exact absurd (isBackupName_backup s) (hb k _ hks)
    exact hstart.runs ht hb hroot.names hruns
  obtain ⟨hheld, hpath, -⟩ := ho.holdsManifest ht hkept hroot
  obtain ⟨hkept₁, hless, hgone⟩ := files_kept ht hb hroot hkept hfiles
  rcases hend with ⟨-, hnot⟩ | ⟨hok, hreplace, -⟩
  · exact absurd rfl (hnot report)
  rw [hpath] at hreplace
  obtain ⟨hkept', htree⟩ := hkept₁.replace_manifest ht hroot hreplace
  have hleft : ∀ k s, h'.tree.HasBackup k s → h₁.tree.HasBackup k s := by
    intro k s hks
    rw [htree] at hks
    exact Tree.hasBackup_set_manifest.mp hks
  have hreported : ∀ k s, h'.tree.HasBackup k s → ∀ a ∈ attemptsOf runs h,
      a.root = e.root → ¬ a.Wrote k s := by
    rintro k s hks a ha haroot ⟨target, files, hres, file, hfile, hlead⟩
    have hentry := hacc.recorded manifest hheld a ha (haroot.trans hroot.root_eq) target files hres
    have hmem := Manifest.mem_appliedFiles.mpr ⟨_, hentry, hfile⟩
    refine hgone hok file hmem k s ?_ (hleft k s hks)
    rw [Attempt.LeadsTo, Enclosure.place_eq_ok (haroot.trans hroot.root_eq) hroot.names] at hlead
    obtain ⟨names, hinside, hplace⟩ := hlead
    have hnames := hroot.names.append (Path.areNames_of_inside? hinside)
    obtain ⟨x, hx⟩ := Option.isSome_iff_exists.mp hks
    obtain ⟨-, b, hfirst, -⟩ := hkept'.backup k s x hx
    have hks' : AreNames (k ++ [s]) := ht.names _ (by rw [hfirst]; rfl)
    exact ⟨names, hinside, (Path.ofNames_injective hks' hnames hplace).symm⟩
  refine ⟨e.root, ho.canonicalPath_eq, fun k s b hs hfirst => ?_, fun k s x hx => ?_, hreported, fun k s hks => ?_⟩
  · rcases hkept'.file k s b hs hfirst with hfile | ⟨-, hbackup⟩
    · exact Or.inl hfile
    · exact Or.inr (by rw [Tree.HasBackup, hbackup]; rfl)
  · exact (hkept'.backup k s x hx).2
  · obtain ⟨a, ha, hcause⟩ := hacc.backups k s (hless k s (hleft k s hks))
    refine ⟨a, ha, ?_⟩
    rcases hcause with hfailed | hwrote
    · exact Or.inl hfailed
    · exact Or.inr ⟨fun haroot => hreported k s hks a ha haroot hwrote, hwrote⟩

/-- An extension with two files. -/
def twoFileTree : Tree where
  entries := [(["x"], .directory), (["x", "package.json"], .file "\x7b\x7d".toUTF8),
    (["x", "a.js"], .file "one".toUTF8), (["x", "b.js"], .file "one".toUTF8)]

/-- A set of two descriptors.  The first one fails at a missing file when it has written `a.js`. -/
def halfFailingSet : PatchSet where
  descriptors := [⟨.extensions (.one "p.x"), [insertTwo "a.js", insertTwo "missing.js"]⟩,
    ⟨.extensions (.one "p.x"), [insertTwo "b.js"]⟩]

def halfFailingRun : Run where
  find := fun id => some ⟨id, ⟨"/x"⟩, false⟩
  source := .here
  set := halfFailingSet

/-- The host after a run over the extension. -/
def halfFailedHost : TreeHost := afterRuns [halfFailingRun] (.ofTree twoFileTree)

theorem twoFileTree_plain : twoFileTree.Plain := Tree.plain_of_isPlain (by decide +kernel)

theorem twoFileTree_hasNoBackups : twoFileTree.HasNoBackups :=
  Tree.hasNoBackups_of_lacksBackups (by decide +kernel)

theorem halfFailingRun_ordinary : ∀ r ∈ [halfFailingRun], r.set.Ordinary := by decide +kernel

/-- The content of an entry, if it is a file. -/
def Entry.content? : Entry → Option ByteArray
  | .file content => some content
  | _ => none

theorem exists_restore_halfFailedHost : ∃ report h',
    (Restore.extension ⟨"/x"⟩ : OnTree _) halfFailedHost = (.ok report, h') ∧
      (h'.tree.get? ["x", "a.js"]).bind Entry.content? = some "onetwo".toUTF8 := by
  have hcheck : ((Restore.extension ⟨"/x"⟩ : OnTree _) halfFailedHost).1.isOk = true ∧
      (((Restore.extension ⟨"/x"⟩ : OnTree _) halfFailedHost).2.tree.get? ["x", "a.js"]).bind
        Entry.content? = some "onetwo".toUTF8 := by
    decide +kernel
  rcases hrun : (Restore.extension ⟨"/x"⟩ : OnTree _) halfFailedHost with ⟨r, h'⟩
  rw [hrun] at hcheck
  cases r with
  | error cause => cases hcheck.1
  | ok report => exact ⟨report, h', rfl, hcheck.2⟩

theorem halfFailedHost_undone : twoFileTree.Plain ∧ twoFileTree.HasNoBackups ∧
    (∀ r ∈ [halfFailingRun], r.set.Ordinary) ∧ ∃ report h' place,
      (Restore.extension ⟨"/x"⟩ : OnTree _) halfFailedHost = (.ok report, h') ∧
        halfFailedHost.tree.canonicalPath halfFailedHost.working ⟨"/x"⟩ = .ok place ∧
          Undone twoFileTree h'.tree place (attemptsOf [halfFailingRun] (.ofTree twoFileTree)) := by
  obtain ⟨report, h', hrestore, -⟩ := exists_restore_halfFailedHost
  obtain ⟨place, hplace, hundone⟩ := restore_undoes_runs (h := .ofTree twoFileTree)
    twoFileTree_plain twoFileTree_hasNoBackups [halfFailingRun] halfFailingRun_ordinary hrestore
  exact ⟨twoFileTree_plain, twoFileTree_hasNoBackups, halfFailingRun_ordinary, report, h', place,
    hrestore, hplace, hundone⟩

/-- The record of a manifest without members is empty. -/
theorem Tree.HoldsManifest.applied_of_empty {t : Tree} {d : Manifest}
    (hget : t.get? (l ++ [manifestName]) = some (.file "\x7b\x7d".toUTF8))
    (h : t.HoldsManifest l d) : d.applied = [] := by
  obtain ⟨b, text, hget', hdecode, htext⟩ := h
  rw [hget] at hget'
  cases hget'
  obtain rfl := Host.eq_of_decodeText hdecode
  have hempty : ((Json.parse "\x7b\x7d".toList).toOption.bind Json.members?).any
      List.isEmpty = true := by
    decide +kernel
  unfold Manifest.ofText at htext
  split at htext
  · rename_i members hparse
    rw [hparse] at hempty
    have hmembers : d.members = [] := by
      rw [← congrArg Manifest.members (Except.ok.inj htext)]
      exact List.isEmpty_iff.mp hempty
    unfold Manifest.applied Manifest.recordMembers?
    rw [hmembers]
    rfl
  · cases htext
  · cases htext

/-- **Not everything is undone**: what a failed descriptor has written stays written. -/
theorem failed_descriptor_stays :
    ¬ ∀ (h h' : TreeHost) (root : Path) (l : Location) (runs : List Run) (report : RestoreReport),
      h.tree.Plain → h.tree.HasNoBackups →
      h.tree.canonicalPath h.working root = .ok (Path.ofNames l) →
      (∀ d, h.tree.HoldsManifest l d → d.applied = []) →
      (∀ r ∈ runs, r.set.Ordinary ∧ ∀ id x, r.find id = some x → x.root = root) →
      (Restore.extension root : OnTree _) (afterRuns runs h) = (.ok report, h') →
      ∀ k s b, s ≠ manifestName → h.tree.get? (k ++ [s]) = some (.file b) →
        h'.tree.get? (k ++ [s]) = some (.file b) ∧ ¬ h'.tree.HasBackup k s := by
  intro hclaim
  obtain ⟨report, h', hrestore, hfile⟩ := exists_restore_halfFailedHost
  have hroot : twoFileTree.canonicalPath [] ⟨"/x"⟩ = .ok (Path.ofNames ["x"]) :=
    eq_ok_of_toOption (by decide +kernel)
  have hmanifest : twoFileTree.get? (["x"] ++ [manifestName]) =
      some (.file "\x7b\x7d".toUTF8) := rfl
  have hruns : ∀ r ∈ [halfFailingRun], r.set.Ordinary ∧
      ∀ id x, r.find id = some x → x.root = ⟨"/x"⟩ := by
    intro r hr
    refine ⟨halfFailingRun_ordinary r hr, fun id x hx => ?_⟩
    obtain rfl := List.mem_singleton.mp hr
    cases hx
    rfl
  have hfirst : twoFileTree.get? (["x"] ++ ["a.js"]) = some (.file "one".toUTF8) := rfl
  have hsame := (hclaim (.ofTree twoFileTree) h' ⟨"/x"⟩ ["x"] [halfFailingRun] report
    twoFileTree_plain twoFileTree_hasNoBackups hroot (fun d hd => hd.applied_of_empty hmanifest)
    hruns hrestore ["x"] "a.js" _ (by decide) hfirst).1
  have hne : "one".toUTF8 ≠ "onetwo".toUTF8 := by decide +kernel
  have hsame : h'.tree.get? ["x", "a.js"] = some (.file "one".toUTF8) := hsame
  rw [hsame] at hfile
  exact hne (Option.some.inj hfile)

end TextPatch
