/-
# Runs over the bundled script do not depend on the runs before them

The first run over a script backs it up, and every run starts from the backup and replaces the
script.  So after any number of runs the tree is the one that the first backup left, with some text
in the place of the script (`Held`), and the next run puts its own text there, whatever was there
before.

* `Held.run` is one run on such a tree, `Held.runs` any number of them;
* `Fresh.held` is the first backup;
* `patchSet_error` is about runs that fail, from any state: nothing that can be read changes.

Two paths are written on the way that are longer than that of the script, and either may break a
limit that the script does not break.  If it is the path of the new file, all runs fail after the
backup has been made, and the script stays what it was.  If it is that of the backup, all runs fail
before anything changes, so that there is no backup to hold the original text
(`backup_of_long_name`).

`runs_independent` puts them together.
-/
import TextPatch.Proofs.Bundle.Failures
import TextPatch.Proofs.Files.Limits

namespace TextPatch

open TextPatch.Tree (Names Follows Ends)

/-- The bytes of a text are decoded to it. -/
theorem Host.decodeText_toUTF8 (s : String) : Host.decodeText s.toUTF8 = .ok s := by
  have hread : String.fromUTF8? s.toUTF8 = some s := dif_pos s.isValidUTF8
  unfold Host.decodeText
  rw [hread]

namespace Bundle

/-! ## 1. A script that has been backed up -/

/-- A script whose backup holds its original text and which can be replaced in its place, again and
again, without the backup changing. -/
structure Held (script : Path) (original : String) (working place : Location) (t : Tree) :
    Prop where
  names : ∃ k s, place = k ++ [s] ∧ t.Names working script k s
  not_directory : t.isDirectory place = false
  live : ∃ b, t.read working script = .ok b
  backup : t.read working script.backup = .ok original.toUTF8
  backup_kept : ∀ content, (t.set place (.file content)).read working script.backup =
    .ok original.toUTF8

section

variable {script : Path} {original : String} {working place : Location} {t : Tree}

/-- A script that has been replaced holds its new text, and can be replaced again. -/
theorem Held.set (ht : Held script original working place t) (content : ByteArray) :
    (t.set place (.file content)).read working script = .ok content ∧
      Held script original working place (t.set place (.file content)) := by
  obtain ⟨k, s, rfl, hnames⟩ := ht.names
  obtain ⟨b, hlive⟩ := ht.live
  have hread := hnames.read_set ht.not_directory hlive content
  refine ⟨hread, ⟨k, s, rfl, hnames.set_self ht.not_directory hlive content⟩, ?_, ⟨content, hread⟩,
    ht.backup_kept content, fun c => ?_⟩
  · exact Tree.isDirectory_eq_false (by rw [Tree.get?_set_file ht.not_directory]; simp)
  · rw [Tree.set_set]
    exact ht.backup_kept c

end

/-- The text that a script is read as once it is backed up. -/
theorem pristineIn_of_backup {script : Path} {original : String} {h : TreeHost}
    (hread : h.tree.read h.working script.backup = .ok original.toUTF8) :
    h.tree.present h.working script.backup = true ∧
      pristineIn h script = .ok original.toList := by
  have hpresent := Tree.present_of_read hread
  refine ⟨hpresent, ?_⟩
  unfold pristineIn
  simp only [hpresent, if_true]
  rw [hread]
  have hdecode : (Except.ok original.toUTF8 : Except IoError ByteArray).bind Host.decodeText =
      .ok original := Host.decodeText_toUTF8 original
  rw [hdecode]

section

variable {script : Path} {original : String} {working place : Location}
  {provider : SourceMap.Provider OnTree} {answer : Path → Text → Answer} {h : TreeHost}

/-- The host after runs over a script, one for each of some patch sets. -/
def afterRuns (script : Path) (provider : SourceMap.Provider OnTree) (h : TreeHost)
    (sets : List PatchSet) : TreeHost :=
  sets.foldl (fun h s => ((patchSet script s provider false : OnTree _) h).2) h

/-- What a run comes to that has made its report: its output is in the place of the script, or the
path of the new file is too long, and then no file changes. -/
inductive Finished (script : Path) (place : Location) (report : BundleReport) (t : Tree)
    (working : Location) : Except BundleError BundleReport → TreeHost → Prop
  | replaced {h' : TreeHost}
      (hroom : (Tree.temporaryPath working script).text.utf8ByteSize ≤ pathLimit)
      (htree : h'.tree = t.set place (.file (String.ofList report.output).toUTF8))
      (hworking : h'.working = working) : Finished script place report t working (.ok report) h'
  | refused {h' : TreeHost}
      (hlong : pathLimit < (Tree.temporaryPath working script).text.utf8ByteSize)
      (htree : h'.tree = t) (hworking : h'.working = working) :
      Finished script place report t working (.error (.io script .nameTooLong)) h'

section

variable {report : BundleReport} {r r' : Except BundleError BundleReport} {h' h'' : TreeHost}

/-- A run that starts from a script which has been backed up. -/
theorem Held.finished (ht : Held script original h.working place h.tree)
    (hend : Ending script report h false r h') :
    Finished script place report h.tree h.working r h' := by
  obtain ⟨k, s, rfl, hnames⟩ := ht.names
  by_cases hroom : (Tree.temporaryPath h.working script).text.utf8ByteSize ≤ pathLimit
  · obtain ⟨rfl, htree, hworking⟩ :=
      hend.of_replace_eq (hnames.replace_eq ht.not_directory hroom _)
    exact .replaced hroom htree hworking
  · have hrefused := hnames.replace_error (Nat.not_le.mp hroom) (String.ofList report.output).toUTF8
    cases hend with
    | written hreplace _ => cases hrefused.symm.trans hreplace
    | refused hreplace hfiles =>
      obtain rfl := Except.error.inj (hrefused.symm.trans hreplace)
      exact .refused (Nat.not_le.mp hroom) hfiles.1 hfiles.2

section

variable {t t' : Tree} {working : Location}

/-- The script stays one that has been backed up. -/
theorem Finished.held (hfinished : Finished script place report t working r h')
    (ht : Held script original working place t) :
    Held script original h'.working place h'.tree := by
  cases hfinished with
  | replaced _ htree hworking =>
    rw [htree, hworking]
    exact (ht.set _).2
  | refused _ htree hworking => rwa [htree, hworking]

/-- Nothing but the script changes, and that only if there is room for the new file. -/
theorem Finished.frame (hfinished : Finished script place report t working r h') :
    (∀ content, h'.tree.set place (.file content) = t.set place (.file content)) ∧
      (pathLimit < (Tree.temporaryPath working script).text.utf8ByteSize → h'.tree = t) ∧
      h'.working = working := by
  cases hfinished with
  | replaced hroom htree hworking =>
    exact ⟨fun _ => by rw [htree, Tree.set_set], fun hlong => absurd hroom (Nat.not_le.mpr hlong),
      hworking⟩
  | refused _ htree hworking => exact ⟨fun _ => by rw [htree], fun _ => htree, hworking⟩

/-- **Two runs with one report** from trees that differ in the script only, if at all, come to the
same. -/
theorem Finished.unique (hfinished : Finished script place report t working r h')
    (hfinished' : Finished script place report t' working r' h'')
    (hset : ∀ content, t'.set place (.file content) = t.set place (.file content))
    (hsame : pathLimit < (Tree.temporaryPath working script).text.utf8ByteSize → t' = t) :
    r' = r ∧ h'.SameFiles h'' := by
  cases hfinished with
  | replaced hroom htree hworking =>
    cases hfinished' with
    | replaced _ htree' hworking' =>
      exact ⟨rfl, by rw [htree', hset, htree], hworking'.trans hworking.symm⟩
    | refused hlong _ _ => exact absurd hroom (Nat.not_le.mpr hlong)
  | refused hlong htree hworking =>
    cases hfinished' with
    | replaced hroom _ _ => exact absurd hroom (Nat.not_le.mpr hlong)
    | refused _ htree' hworking' =>
      exact ⟨rfl, by rw [htree', hsame hlong, htree], hworking'.trans hworking.symm⟩

end

end

/-- **One run over a script that has been backed up.**  It makes its report from the original
text. -/
theorem Held.run (hprovider : Answering provider answer)
    (ht : Held script original h.working place h.tree) (s : PatchSet) :
    ∃ r h', (patchSet script s provider false : OnTree _) h = (r, h') ∧
      Finished script place (reportOn (answer script original.toList) original.toList s) h.tree
        h.working r h' := by
  obtain ⟨hpresent, hpristine⟩ := pristineIn_of_backup ht.backup
  have hopened : (openScript script false : OnTree _) h = (.ok original.toList, h) := by
    rw [openScript_of_present hpresent, hpristine]
  rcases hrun : (patchSet script s provider false : OnTree _) h with ⟨r, h'⟩
  exact ⟨r, h', rfl, ht.finished (ending_of_opened hprovider hopened hrun)⟩

/-- **Any number of runs over a script that has been backed up** change its text only. -/
theorem Held.runs (hprovider : Answering provider answer) : ∀ (sets : List PatchSet)
    {h : TreeHost}, Held script original h.working place h.tree →
      Held script original (afterRuns script provider h sets).working place
          (afterRuns script provider h sets).tree ∧
        (∀ content, (afterRuns script provider h sets).tree.set place (.file content) =
          h.tree.set place (.file content)) ∧
        (pathLimit < (Tree.temporaryPath h.working script).text.utf8ByteSize →
          (afterRuns script provider h sets).tree = h.tree) ∧
        (afterRuns script provider h sets).working = h.working
  | [], h, ht => ⟨ht, fun _ => rfl, fun _ => rfl, rfl⟩
  | s :: sets, h, ht => by
    obtain ⟨r, h', hrun, hfinished⟩ := ht.run hprovider s
    obtain ⟨hset, hsame, hworking⟩ := hfinished.frame
    have hafter : afterRuns script provider h (s :: sets) = afterRuns script provider h' sets := by
      rw [afterRuns, List.foldl_cons, hrun]
      rfl
    obtain ⟨hheld, hset', hsame', hworking'⟩ := Held.runs hprovider sets (hfinished.held ht)
    rw [hafter]
    refine ⟨hheld, fun content => (hset' content).trans (hset content), fun hlong => ?_,
      hworking'.trans hworking⟩
    rw [hsame' (by rwa [hworking]), hsame hlong]

end

/-! ## 2. The first backup -/

/-- A script that can be read, is a text and has no backup yet. -/
structure Fresh (script : Path) (original : String) (h : TreeHost) : Prop where
  working : h.tree.Stands h.working
  live : h.tree.read h.working script = .ok original.toUTF8
  no_backup : h.tree.present h.working script.backup = false

theorem Fresh.held {script : Path} {original : String} {h : TreeHost} {t : Tree}
    (hfresh : Fresh script original h)
    (hcopy : h.tree.copy h.working script script.backup = .ok t) :
    t.read h.working script = .ok original.toUTF8 ∧
      ∃ place, Held script original h.working place t := by
  obtain ⟨b, hread, hwrite⟩ := Tree.copy_eq_ok_iff.mp hcopy
  rw [hfresh.live] at hread
  obtain rfl := Except.ok.inj hread
  obtain ⟨-, -, -, hkeeps⟩ := Tree.read_of_write hfresh.no_backup hwrite
  obtain ⟨k, s, hnames, hplace⟩ := hfresh.working.names_of_read hfresh.live
  obtain ⟨hnames', hplace', hbackup, hkept⟩ :=
    hnames.keeps_written hplace hfresh.live hfresh.no_backup hwrite
  have hlive := hkeeps hfresh.live
  exact ⟨hlive, k ++ [s], ⟨k, s, rfl, hnames'⟩, hplace', ⟨_, hlive⟩, hbackup, hkept⟩

section

variable {script : Path} {original : String} {provider : SourceMap.Provider OnTree}
  {answer : Path → Text → Answer} {h : TreeHost}

/-- **The first run over a script** of which a backup can be made. -/
theorem Fresh.run (hprovider : Answering provider answer) (hfresh : Fresh script original h)
    {t : Tree} (hcopy : h.tree.copy h.working script script.backup = .ok t) {place : Location}
    (ht : Held script original h.working place t) (s : PatchSet) :
    ∃ r h', (patchSet script s provider false : OnTree _) h = (r, h') ∧
      Finished script place (reportOn (answer script original.toList) original.toList s) t
        h.working r h' := by
  obtain ⟨h₁, hopened, rfl, hworking⟩ := exists_openScript_of_copied hfresh.no_backup hcopy
  rw [← hworking] at ht ⊢
  rw [(pristineIn_of_backup ht.backup).2] at hopened
  rcases hrun : (patchSet script s provider false : OnTree _) h with ⟨r, h'⟩
  exact ⟨r, h', rfl, ht.finished (ending_of_opened hprovider hopened hrun)⟩

/-- A script whose backup is refused is not patched, however often it is tried. -/
theorem refused_run (hprovider : Answering provider answer) {cause : IoError}
    (habsent : h.tree.present h.working script.backup = false)
    (hcopy : h.tree.copy h.working script script.backup = .error cause) (s : PatchSet) :
    (patchSet script s provider false : OnTree _) h =
      (.error (.backup (.create script cause)), h) := by
  have hopened := openScript_of_refused habsent hcopy
  rcases hrun : (patchSet script s provider false : OnTree _) h with ⟨r, h'⟩
  rcases patchSet_cases hprovider hrun with ⟨e, hopen, rfl⟩ | ⟨pristine, h₁, hopen, -⟩
  · obtain ⟨he, rfl⟩ := Prod.mk.inj (hopened.symm.trans hopen)
    cases he
    rfl
  · cases hopened.symm.trans hopen

theorem afterRuns_refused (hprovider : Answering provider answer) {cause : IoError}
    (habsent : h.tree.present h.working script.backup = false)
    (hcopy : h.tree.copy h.working script script.backup = .error cause) :
    ∀ sets : List PatchSet, afterRuns script provider h sets = h
  | [] => rfl
  | s :: sets => by
    rw [afterRuns, List.foldl_cons, refused_run hprovider habsent hcopy s]
    exact afterRuns_refused hprovider habsent hcopy sets

end

/-! ## 3. Runs that fail -/

/-- What a run that fails leaves as it was: all that could be read, and every single file if the
script had a backup. -/
structure Unharmed (script : Path) (h h' : TreeHost) : Prop where
  reads : ∀ {p b}, h.tree.read h.working p = .ok b → h'.tree.read h'.working p = .ok b
  files : h.tree.present h.working script.backup = true → h.SameFiles h'

theorem Unharmed.of_sameFiles {script : Path} {h h' : TreeHost} (hsame : h.SameFiles h') :
    Unharmed script h h' :=
  ⟨fun hread => by rw [hsame.1, hsame.2]; exact hread, fun _ => hsame⟩

theorem Opening.unharmed {script : Path} {h h' : TreeHost} {r : Except BundleError Text}
    (hopen : Opening script h r h') : Unharmed script h h' := by
  cases hopen with
  | kept _ => exact .of_sameFiles (.refl h)
  | refused _ _ => exact .of_sameFiles (.refl h)
  | copied habsent hcopy hworking =>
    obtain ⟨b, -, hwrite⟩ := Tree.copy_eq_ok_iff.mp hcopy
    obtain ⟨-, -, -, hkeeps⟩ := Tree.read_of_write habsent hwrite
    refine ⟨fun hread => ?_, fun hpresent => ?_⟩
    · rw [hworking]
      exact hkeeps hread
    · rw [habsent] at hpresent
      cases hpresent

/-- **A run that fails** harms nothing, from whatever state it starts. -/
theorem patchSet_error {script : Path} {s : PatchSet} {provider : SourceMap.Provider OnTree}
    {answer : Path → Text → Answer} (hprovider : Answering provider answer) {dryRun : Bool}
    {h h' : TreeHost} {e : BundleError}
    (hrun : (patchSet script s provider dryRun : OnTree _) h = (.error e, h')) :
    Unharmed script h h' := by
  have hopening : ∀ {x h₁}, (openScript script dryRun : OnTree _) h = (x, h₁) →
      Unharmed script h h₁ := by
    intro x h₁ hopen
    cases dryRun with
    | true =>
      rw [openScript_dry] at hopen
      obtain ⟨-, rfl⟩ := Prod.mk.inj hopen
      exact .of_sameFiles (.refl h)
    | false => exact (openScript_cases hopen).unharmed
  rcases patchSet_cases hprovider hrun with ⟨e', hopen, -⟩ | ⟨pristine, h₁, hopen, hend⟩
  · exact hopening hopen
  · have hstart := hopening hopen
    cases hend with
    | refused _ hfiles =>
      refine ⟨fun hread => ?_, fun hpresent => (hstart.files hpresent).trans hfiles⟩
      rw [hfiles.1, hfiles.2]
      exact hstart.reads hread

/-! ## 4. Whole histories -/

/-- What a run leaves that has made its report from the original text: the backup holds that text,
and the script the output, or the original text still if no new file could be made. -/
inductive Backed (script : Path) (original : String) (h' : TreeHost) :
    Except BundleError BundleReport → Prop
  | patched {report : BundleReport}
      (backup : h'.tree.read h'.working script.backup = .ok original.toUTF8)
      (pristine : report.pristine = original.toList)
      (live : h'.tree.read h'.working script = .ok (String.ofList report.output).toUTF8) :
      Backed script original h' (.ok report)
  | unplaced (backup : h'.tree.read h'.working script.backup = .ok original.toUTF8)
      (live : h'.tree.read h'.working script = .ok original.toUTF8) :
      Backed script original h' (.error (.io script .nameTooLong))

theorem Finished.backed {script : Path} {original : String} {working place : Location} {t : Tree}
    {report : BundleReport} {r : Except BundleError BundleReport} {h' : TreeHost}
    (hfinished : Finished script place report t working r h')
    (ht : Held script original working place t)
    (hlive : t.read working script = .ok original.toUTF8)
    (hpristine : report.pristine = original.toList) : Backed script original h' r := by
  have hbackup := (hfinished.held ht).backup
  cases hfinished with
  | replaced _ htree hworking =>
    refine .patched hbackup hpristine ?_
    rw [htree, hworking]
    exact (ht.set _).1
  | refused _ htree hworking =>
    refine .unplaced hbackup ?_
    rwa [htree, hworking]

theorem Backed.of_sameFiles {script : Path} {original : String} {h h' : TreeHost}
    {r : Except BundleError BundleReport} (hbacked : Backed script original h r)
    (hfiles : h.SameFiles h') : Backed script original h' r := by
  obtain ⟨htree, hworking⟩ := hfiles
  cases hbacked with
  | patched hbackup hpristine hlive =>
    rw [← htree, ← hworking] at hbackup hlive
    exact .patched hbackup hpristine hlive
  | unplaced hbackup hlive =>
    rw [← htree, ← hworking] at hbackup hlive
    exact .unplaced hbackup hlive

/-- What a run comes to after other runs, on the host `earlier`, against what it comes to on the
host `h` with the original script: the same report and the same files.  The backup holds the
original text, unless it was refused; then no file has changed. -/
structure Repeats (script : Path) (original : String) (s : PatchSet)
    (provider : SourceMap.Provider OnTree) (h earlier : TreeHost) : Prop where
  result_eq : ((patchSet script s provider false : OnTree _) earlier).1 =
    ((patchSet script s provider false : OnTree _) h).1
  files_eq : ((patchSet script s provider false : OnTree _) h).2.SameFiles
    ((patchSet script s provider false : OnTree _) earlier).2
  outcome : (∃ r h', (patchSet script s provider false : OnTree _) earlier = (r, h') ∧
      Backed script original h' r) ∨
    ∃ cause, h.tree.copy h.working script script.backup = .error cause ∧
      (patchSet script s provider false : OnTree _) earlier =
        (.error (.backup (.create script cause)), earlier) ∧ h.SameFiles earlier

/-- **Runs over the bundled script do not depend on the runs before them**, and a run that fails
harms nothing. -/
theorem runs_independent {provider : SourceMap.Provider OnTree} {answer : Path → Text → Answer}
    (hprovider : Answering provider answer) (script : Path) :
    (∀ original h, Fresh script original h → ∀ (sets : List PatchSet) (s : PatchSet),
      Repeats script original s provider h (afterRuns script provider h sets)) ∧
    ∀ (s : PatchSet) (dryRun : Bool) (h h' : TreeHost) (e : BundleError),
      (patchSet script s provider dryRun : OnTree _) h = (.error e, h') →
        Unharmed script h h' := by
  refine ⟨fun original h hfresh sets s => ?_, fun s dryRun h h' e => patchSet_error hprovider⟩
  cases hcopy : h.tree.copy h.working script script.backup with
  | error cause =>
    rw [afterRuns_refused hprovider hfresh.no_backup hcopy]
    exact ⟨rfl, .refl _, Or.inr ⟨cause, hcopy,
      refused_run hprovider hfresh.no_backup hcopy s, .refl h⟩⟩
  | ok t =>
    obtain ⟨hlive, place, ht⟩ := hfresh.held hcopy
    obtain ⟨r, alone, halone, hfinished⟩ := hfresh.run hprovider hcopy ht s
    have hbacked := hfinished.backed ht hlive rfl
    -- the run after the others comes to the same
    obtain ⟨h', hrun, hfiles⟩ : ∃ h', (patchSet script s provider false : OnTree _)
        (afterRuns script provider h sets) = (r, h') ∧ alone.SameFiles h' := by
      cases sets with
      | nil => exact ⟨alone, halone, .refl alone⟩
      | cons s₀ sets =>
        obtain ⟨r₀, h₀, hrun₀, hfinished₀⟩ := hfresh.run hprovider hcopy ht s₀
        obtain ⟨hset₀, hsame₀, hworking₀⟩ := hfinished₀.frame
        have hafter : afterRuns script provider h (s₀ :: sets) =
            afterRuns script provider h₀ sets := by
          rw [afterRuns, List.foldl_cons, hrun₀]
          rfl
        obtain ⟨hheld, hset, hsame, hworking⟩ :=
          Held.runs hprovider sets (hfinished₀.held ht)
        obtain ⟨r', h', hrun, hfinished'⟩ := hheld.run hprovider s
        rw [hworking.trans hworking₀] at hfinished'
        rw [hworking₀] at hsame
        obtain ⟨rfl, hfiles⟩ := hfinished.unique hfinished'
          (fun content => (hset content).trans (hset₀ content))
          (fun hlong => (hsame hlong).trans (hsame₀ hlong))
        exact ⟨h', by rw [hafter, hrun], hfiles⟩
    refine ⟨by rw [hrun, halone], by rw [hrun, halone]; exact hfiles,
      Or.inl ⟨r, h', hrun, ?_⟩⟩
    exact hbacked.of_sameFiles hfiles

theorem cutHost_fresh : Fresh ⟨"/x.js"⟩ "ab=cd" cutHost where
  working := Tree.stands_nil _
  live := by rfl
  no_backup := by decide +kernel

/-- A script that is not there cannot be patched. -/
theorem exists_patchSet_missing : ∃ e h',
    (patchSet ⟨"/y.js"⟩ brokenSet (SourceMap.fixed (.ok cutMap)) false : OnTree _) cutHost =
      (.error e, h') := by
  have hcheck : (match (patchSet ⟨"/y.js"⟩ brokenSet (SourceMap.fixed (.ok cutMap)) false :
      OnTree _) cutHost with
      | (.ok _, _) => false
      | (.error _, _) => true) = true := by
    decide +kernel
  rcases hrun : (patchSet ⟨"/y.js"⟩ brokenSet (SourceMap.fixed (.ok cutMap)) false : OnTree _)
    cutHost with ⟨r, h'⟩
  rw [hrun] at hcheck
  cases r with
  | error e => exact ⟨e, h', rfl⟩
  | ok r => cases hcheck

theorem cutHost_runs_independent :
    Answering (SourceMap.fixed (.ok cutMap)) (fun _ _ => .ok cutMap) ∧
      (Fresh ⟨"/x.js"⟩ "ab=cd" cutHost ∧ Repeats ⟨"/x.js"⟩ "ab=cd" cutSet
        (SourceMap.fixed (.ok cutMap)) cutHost (afterRuns ⟨"/x.js"⟩
          (SourceMap.fixed (.ok cutMap)) cutHost [brokenSet, cutSet])) ∧
      ∃ e h', (patchSet ⟨"/y.js"⟩ brokenSet (SourceMap.fixed (.ok cutMap)) false : OnTree _)
        cutHost = (.error e, h') ∧ Unharmed ⟨"/y.js"⟩ cutHost h' := by
  obtain ⟨e, h', hrun⟩ := exists_patchSet_missing
  refine ⟨answering_fixed _, ⟨cutHost_fresh, ?_⟩, e, h', hrun, ?_⟩
  · exact (runs_independent (answering_fixed _) ⟨"/x.js"⟩).1 _ _ cutHost_fresh
      [brokenSet, cutSet] cutSet
  · exact (runs_independent (answering_fixed _) ⟨"/y.js"⟩).2 brokenSet false _ _ _ hrun

/-- **No backup, no original text in it.**  A script may have a name that is short enough for a file
but not for its backup.  Then no run over it makes one. -/
theorem backup_of_long_name :
    ¬ ∀ (script : Path) (original : String) (s : PatchSet) (provider : SourceMap.Provider OnTree)
        (answer : Path → Text → Answer) (h : TreeHost), Answering provider answer →
      Fresh script original h → (afterRuns script provider h [s]).tree.read
        (afterRuns script provider h [s]).working script.backup = .ok original.toUTF8 := by
  intro hclaim
  have hlong := tooLong_replicate
  generalize String.ofList (List.replicate 250 'a') = file at hlong
  have hfresh : Fresh (fromAbove 0 file) "x" (hostWith file) :=
    { working := Tree.stands_nil _
      live := hlong.read_eq
      no_backup := Tree.present_of_not_fits hlong.not_fits }
  have hread := hclaim (fromAbove 0 file) "x" cutSet _ _ (hostWith file)
    (answering_fixed (.ok cutMap)) hfresh
  obtain ⟨l, hlocate, -⟩ := Tree.read_eq_ok_iff.mp hread
  exact hlong.not_fits (Tree.fits_of_locate hlocate)

end Bundle

end TextPatch
