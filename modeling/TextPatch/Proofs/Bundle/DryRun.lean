/-
# Dry runs

A dry run over the bundled script reads the pristine text where it finds it, and writes nothing.  A
run that is not dry makes a backup first, if there is none, reads the text from there, and replaces
the script at the end.  `dry_run_predicts` says that the one tells what the other will do, whatever
stands at the places of the script and of its backup: both come to the same report or both fail.

One thing a dry run cannot tell, for it does not try: whether the backup can be made and the script
be replaced.  This comes down to three conditions on the path of the script alone (`HasRoom`): it is
not empty, the path of its backup breaks no limit, and that of the new file is not too long.
`dry_run_overlooks` shows that none of them can be left out.

* `patchSet_dry` is the dry run;
* `openScript_beside` and `patchSet_beside` follow the other run, from a script and its backup that
  have places side by side;
* `foreseen_of_ok` goes back from a run that has succeeded.
-/
import TextPatch.Proofs.Bundle.History

namespace TextPatch.Bundle

variable {script : Path} {s : PatchSet} {provider : SourceMap.Provider OnTree}
  {answer : Path → Text → Answer} {h h' h₁ : TreeHost} {pristine : Text} {k : Location}
  {name : String}

/-! ## 1. The pristine text -/

/-- The path that the pristine text of a script is read from on a host. -/
def sourceIn (h : TreeHost) (script : Path) : Path :=
  if h.tree.present h.working script.backup then script.backup else script

/-- A pristine text is the text of the file that it is read from. -/
theorem pristineIn_eq_ok_iff : pristineIn h script = .ok pristine ↔
    h.tree.read h.working (sourceIn h script) = .ok (String.ofList pristine).toUTF8 := by
  unfold pristineIn sourceIn
  simp only
  generalize (if h.tree.present h.working script.backup then script.backup else script) = file
  cases h.tree.read h.working file with
  | error cause => simp [Except.bind]
  | ok b =>
    simp only [Except.bind, Except.ok.injEq]
    constructor
    · intro heq
      cases hdecode : Host.decodeText b with
      | error cause =>
        rw [hdecode] at heq
        cases heq
      | ok text =>
        rw [hdecode] at heq
        cases heq
        rw [String.ofList_toList, Host.toUTF8_of_decodeText hdecode]
    · rintro rfl
      rw [Host.decodeText_toUTF8]
      simp

theorem sourceIn_of_read {b : ByteArray}
    (hread : h.tree.read h.working script.backup = .ok b) : sourceIn h script = script.backup := by
  rw [sourceIn, if_pos (Tree.present_of_read hread)]

theorem sourceIn_of_absent (habsent : h.tree.present h.working script.backup = false) :
    sourceIn h script = script := by
  rw [sourceIn, habsent, if_neg Bool.false_ne_true]

/-! ## 2. Dry runs -/

/-- **A dry run** reports on the pristine text, if it can be read, and changes no file. -/
theorem patchSet_dry (hprovider : Answering provider answer) (h : TreeHost) :
    ((patchSet script s provider true : OnTree _) h).1 =
        (pristineIn h script).map (fun pristine => reportOn (answer script pristine) pristine s) ∧
      h.SameFiles ((patchSet script s provider true : OnTree _) h).2 := by
  rcases hrun : (patchSet script s provider true : OnTree _) h with ⟨r, h'⟩
  rcases patchSet_cases hprovider hrun with ⟨e, hopen, rfl⟩ | ⟨pristine, h₁, hopen, hend⟩
  · rw [openScript_dry] at hopen
    obtain ⟨hpristine, rfl⟩ := Prod.mk.inj hopen
    exact ⟨by rw [hpristine]; rfl, .refl h⟩
  · rw [openScript_dry] at hopen
    obtain ⟨hpristine, rfl⟩ := Prod.mk.inj hopen
    cases hend with
    | dry hfiles => exact ⟨by rw [hpristine]; rfl, hfiles⟩

theorem patchSet_dry_eq_ok_iff (hprovider : Answering provider answer) {r : BundleReport} :
    ((patchSet script s provider true : OnTree _) h).1 = .ok r ↔
      ∃ pristine, pristineIn h script = .ok pristine ∧
        r = reportOn (answer script pristine) pristine s := by
  rw [(patchSet_dry hprovider h).1]
  cases pristineIn h script with
  | error e => simp [Except.map]
  | ok pristine => simp [Except.map, eq_comm]

/-! ## 3. Runs from a script and its backup -/

/-- **A script that can be read is opened**, and its backup then holds the pristine text. -/
theorem openScript_beside (hb : h.tree.Beside h.working script k name)
    (hpristine : pristineIn h script = .ok pristine) :
    ∃ h₁, (openScript script false : OnTree _) h = (.ok pristine, h₁) ∧
      h₁.working = h.working ∧ h₁.tree.Beside h.working script k name ∧
        h₁.tree.get? (k ++ [name ++ backupSuffix]) =
          some (.file (String.ofList pristine).toUTF8) ∧
        ∀ l, l ≠ k ++ [name ++ backupSuffix] → h₁.tree.get? l = h.tree.get? l := by
  have hread := pristineIn_eq_ok_iff.mp hpristine
  cases hpresent : h.tree.present h.working script.backup with
  | true =>
    rw [sourceIn, if_pos hpresent] at hread
    exact ⟨h, by rw [openScript_of_present hpresent, hpristine], rfl, hb, hb.read_backup.mp hread,
      fun _ _ => rfl⟩
  | false =>
    rw [sourceIn_of_absent hpresent] at hread
    obtain ⟨hnone, hcopy⟩ := hb.copy_eq hread hpresent
    obtain ⟨h₁, hopened, htree, hworking⟩ := exists_openScript_of_copied hpresent hcopy
    have hplace := Tree.isDirectory_eq_false (l := k ++ [name ++ backupSuffix])
      (by rw [hnone]; simp)
    have hb₁ : h₁.tree.Beside h.working script k name := by
      rw [htree]
      exact hb.set hplace
    have hbackup : h₁.tree.get? (k ++ [name ++ backupSuffix]) =
        some (.file (String.ofList pristine).toUTF8) := by
      rw [htree]
      exact Tree.get?_set_file hplace
    have hread₁ := hb₁.read_backup.mpr hbackup
    rw [← hworking] at hread₁
    have hpristine₁ : pristineIn h₁ script = .ok pristine :=
      pristineIn_eq_ok_iff.mpr (by rw [sourceIn_of_read hread₁, hread₁])
    exact ⟨h₁, by rw [hopened, hpristine₁], hworking, hb₁, hbackup,
      fun l hl => by rw [htree, Tree.get?_set_ne _ _ hl]⟩

/-- What a run over a script leaves behind when it has come to a report: the output in the script,
and in its backup what the pristine text was read from.  At all other places stands what stood
there. -/
structure Leaves (script : Path) (r : BundleReport) (h h' : TreeHost) : Prop where
  script_eq : h'.tree.read h'.working script = .ok (String.ofList r.output).toUTF8
  backup_eq : h'.tree.read h'.working script.backup = h.tree.read h.working (sourceIn h script)
  source_eq : h.tree.read h.working (sourceIn h script) = .ok (String.ofList r.pristine).toUTF8
  working_eq : h'.working = h.working
  frame : ∀ l, h.tree.locate h.working true script ≠ .ok l →
    h.tree.locate h.working true script.backup ≠ .ok l → h'.tree.get? l = h.tree.get? l

/-- **A run over a script that can be read** comes to the report on its pristine text. -/
theorem patchSet_beside (hprovider : Answering provider answer)
    (hb : h.tree.Beside h.working script k name)
    (hmade : (Tree.temporaryPath h.working script).text.utf8ByteSize ≤ pathLimit)
    (hpristine : pristineIn h script = .ok pristine) :
    ∃ h', (patchSet script s provider false : OnTree _) h =
        (.ok (reportOn (answer script pristine) pristine s), h') ∧
      Leaves script (reportOn (answer script pristine) pristine s) h h' := by
  obtain ⟨h₁, hopen, hworking₁, hb₁, hbackup, hframe⟩ := openScript_beside hb hpristine
  rcases hrun : (patchSet script s provider false : OnTree _) h with ⟨r, h'⟩
  have hreplace := hb₁.replace_eq hmade
    (String.ofList (reportOn (answer script pristine) pristine s).output).toUTF8
  rw [← hworking₁] at hreplace
  obtain ⟨rfl, htree, hworking⟩ :=
    (ending_of_opened hprovider hopen hrun).of_replace_eq hreplace
  have hb' : h'.tree.Beside h.working script k name := by
    rw [htree]
    exact hb₁.set hb₁.not_directory
  refine ⟨h', rfl, ?_, ?_, pristineIn_eq_ok_iff.mp hpristine, hworking.trans hworking₁,
    fun l hscript hback => ?_⟩
  · rw [hworking, hworking₁, hb'.read_file, htree, Tree.get?_set_file hb₁.not_directory]
  · rw [pristineIn_eq_ok_iff.mp hpristine, hworking, hworking₁, hb'.read_backup, htree,
      Tree.get?_set_ne _ _ (backup_ne_self k name), hbackup]
  · rw [hb.locate_file] at hscript
    rw [hb.locate_backup] at hback
    rw [htree, Tree.get?_set_ne _ _ (fun heq => hscript (by rw [heq])),
      hframe l fun heq => hback (by rw [heq])]

/-! ## 4. What a run needs -/

/-- A path at which a script can be backed up and replaced if it can be read: its backup breaks no
limit, and neither does the new file in its directory. -/
structure HasRoom (working : Location) (script : Path) : Prop where
  text_ne : script.text ≠ ""
  backup : script.backup.Fits
  new_file : (Tree.temporaryPath working script).text.utf8ByteSize ≤ pathLimit

/-- No entry is named by the empty path, and a new file is made first. -/
theorem room_of_replace {t t' : Tree} {working : Location} {p : Path} {content : ByteArray}
    (hreplace : t.replace working p content = .ok t') :
    p.text ≠ "" ∧ (Tree.temporaryPath working p).text.utf8ByteSize ≤ pathLimit := by
  obtain ⟨hmade, l, hnamed, -, -⟩ := Tree.replace_eq_ok_iff.mp hreplace
  refine ⟨fun hempty => ?_, (Tree.mayMake_eq_ok_iff.mp hmade).1⟩
  obtain rfl : p = ⟨""⟩ := by
    cases p
    exact congrArg Path.mk hempty
  obtain ⟨l', hlocate, -⟩ := bind_eq_ok.mp hnamed
  obtain ⟨-, hne, -⟩ := Tree.locate_eq_ok_iff.mp hlocate
  exact absurd hne (by decide)

/-- A run that succeeds could read its script, and had room for a backup and a new file. -/
theorem foreseen_of_ok (hprovider : Answering provider answer) (ht : h.tree.Unlinked)
    {r : BundleReport} (hok : ((patchSet script s provider false : OnTree _) h).1 = .ok r) :
    (∃ pristine, pristineIn h script = .ok pristine) ∧ HasRoom h.working script := by
  rcases hrun : (patchSet script s provider false : OnTree _) h with ⟨x, h'⟩
  rw [hrun] at hok
  obtain rfl : x = .ok r := hok
  rcases patchSet_cases hprovider hrun with ⟨e, -, he⟩ | ⟨pristine, h₁, hopen, hend⟩
  · cases he
  · have hroom : h₁.working = h.working → script.backup.Fits → HasRoom h.working script := by
      intro hworking hfits
      cases hend with
      | written hreplace _ =>
        obtain ⟨hne, hmade⟩ := room_of_replace hreplace
        exact ⟨hne, hfits, hworking ▸ hmade⟩
    generalize hx : (Except.ok pristine : Except BundleError Text) = x at hopen
    cases openScript_cases hopen with
    | kept hpresent =>
      obtain ⟨l, hlocate, -⟩ := Tree.present_eq_true_iff.mp hpresent
      exact ⟨⟨pristine, hx.symm⟩, hroom rfl (Tree.fits_of_locate hlocate)⟩
    | refused _ _ => cases hx
    | copied habsent hcopy hworking =>
      obtain ⟨b, hread, hwrite⟩ := Tree.copy_eq_ok_iff.mp hcopy
      obtain ⟨z, hlocate, -, -⟩ := Tree.write_eq_ok_iff.mp hwrite
      have hread₁ := ht.read_of_write hwrite
      rw [← hworking] at hread₁
      have hsource := pristineIn_eq_ok_iff.mp hx.symm
      rw [sourceIn_of_read hread₁, hread₁] at hsource
      refine ⟨⟨pristine, pristineIn_eq_ok_iff.mpr ?_⟩,
        hroom hworking (Tree.fits_of_locate hlocate)⟩
      rw [sourceIn_of_absent habsent, hread, hsource]

/-! ## 5. Predictions -/

/-- What a dry run says of the run from the same state that is not dry: it comes to a report exactly
if that run will come to the same one, provided that there is room for the backup and for the new
file.  It changes no file itself. -/
structure Predicts (script : Path) (s : PatchSet) (provider : SourceMap.Provider OnTree)
    (h : TreeHost) : Prop where
  dry_files : h.SameFiles ((patchSet script s provider true : OnTree _) h).2
  ok_iff : ∀ r, ((patchSet script s provider false : OnTree _) h).1 = .ok r ↔
    ((patchSet script s provider true : OnTree _) h).1 = .ok r ∧ HasRoom h.working script
  leaves : ∀ r h', (patchSet script s provider false : OnTree _) h = (.ok r, h') →
    Leaves script r h h'

/-- **A dry run predicts the run that is not dry**, in a tree without links in which the script is
no directory. -/
theorem dry_run_predicts (hprovider : Answering provider answer) (ht : h.tree.Plain)
    (hdir : h.tree.isDirectoryAt h.working script = false) : Predicts script s provider h := by
  have hrun : ∀ pristine, pristineIn h script = .ok pristine → HasRoom h.working script →
      ∃ h', (patchSet script s provider false : OnTree _) h =
          (.ok (reportOn (answer script pristine) pristine s), h') ∧
        Leaves script (reportOn (answer script pristine) pristine s) h h' := by
    intro pristine hpristine hroom
    have hread := pristineIn_eq_ok_iff.mp hpristine
    obtain ⟨k, name, hb⟩ := Tree.exists_beside ht hroom.text_ne hroom.backup hdir (b := _) (by
      unfold sourceIn at hread
      split at hread
      · exact Or.inr hread
      · exact Or.inl hread)
    exact patchSet_beside hprovider hb hroom.new_file hpristine
  refine ⟨(patchSet_dry hprovider h).2, fun r => ?_, fun r h' hreal => ?_⟩
  · rw [patchSet_dry_eq_ok_iff hprovider]
    constructor
    · intro hok
      obtain ⟨⟨pristine, hpristine⟩, hroom⟩ := foreseen_of_ok hprovider ht.no_link hok
      obtain ⟨h', hreal, -⟩ := hrun pristine hpristine hroom
      rw [hreal] at hok
      exact ⟨⟨pristine, hpristine, (Except.ok.inj hok).symm⟩, hroom⟩
    · rintro ⟨⟨pristine, hpristine, rfl⟩, hroom⟩
      obtain ⟨h', hreal, -⟩ := hrun pristine hpristine hroom
      rw [hreal]
  · obtain ⟨⟨pristine, hpristine⟩, hroom⟩ :=
      foreseen_of_ok (r := r) hprovider ht.no_link (by rw [hreal])
    obtain ⟨h'', hreal', hleaves⟩ := hrun pristine hpristine hroom
    rw [hreal] at hreal'
    obtain ⟨hr, rfl⟩ := Prod.mk.inj hreal'
    cases hr
    exact hleaves

theorem brokenSet_dry_run_predicts :
    Answering (SourceMap.fixed (.ok cutMap)) (fun _ _ => .ok cutMap) ∧ cutHost.tree.Plain ∧
      cutHost.tree.isDirectoryAt cutHost.working ⟨"/x.js"⟩ = false ∧
        (∃ r h', (patchSet ⟨"/x.js"⟩ brokenSet (SourceMap.fixed (.ok cutMap)) false : OnTree _)
          cutHost = (.ok r, h')) ∧
          Predicts ⟨"/x.js"⟩ brokenSet (SourceMap.fixed (.ok cutMap)) cutHost := by
  have hplain : cutHost.tree.Plain := Tree.plain_of_isPlain (by decide +kernel)
  have hfile : cutHost.tree.isDirectoryAt cutHost.working ⟨"/x.js"⟩ = false := by decide +kernel
  obtain ⟨r, h', hrun, -, -⟩ := exists_patchSet_brokenSet
  exact ⟨answering_fixed _, hplain, hfile, ⟨r, h', hrun⟩,
    dry_run_predicts (answering_fixed _) hplain hfile⟩

/-! ## 6. What dry runs overlook -/

/-- The two runs over a script come to the same reports. -/
def Agree (script : Path) (s : PatchSet) (provider : SourceMap.Provider OnTree) (h : TreeHost) :
    Prop :=
  ∀ r, ((patchSet script s provider false : OnTree _) h).1 = .ok r ↔
    ((patchSet script s provider true : OnTree _) h).1 = .ok r

/-- A run over a script that can be read comes to no report if there is no room for it. -/
theorem not_agree (hprovider : Answering provider answer) (ht : h.tree.Unlinked)
    (hpristine : pristineIn h script = .ok pristine) (hroom : ¬ HasRoom h.working script) :
    ¬ Agree script s provider h := by
  intro hagree
  have hdry := (patchSet_dry_eq_ok_iff (s := s) hprovider).mpr ⟨pristine, hpristine, rfl⟩
  exact hroom (foreseen_of_ok hprovider ht ((hagree _).mpr hdry)).2

/-- A script without a backup is its own source. -/
theorem pristineIn_of_absent (hread : h.tree.read h.working script =
    .ok (String.ofList pristine).toUTF8)
    (habsent : h.tree.present h.working script.backup = false) :
    pristineIn h script = .ok pristine :=
  pristineIn_eq_ok_iff.mpr (by rw [sourceIn_of_absent habsent, hread])

/-- **What a dry run overlooks.**  The path of a script may be one that can be read, but not backed
up; the empty path has a backup, but no script can be written there; and there may be room for the
backup, but none for the new file.  In each case a dry run comes to a report, and the other run does
not. -/
theorem dry_run_overlooks :
    (¬ ∀ (script : Path) (s : PatchSet) (provider : SourceMap.Provider OnTree)
        (answer : Path → Text → Answer) (h : TreeHost), Answering provider answer →
      h.tree.Plain → h.tree.isDirectoryAt h.working script = false → script.text ≠ "" →
        (Tree.temporaryPath h.working script).text.utf8ByteSize ≤ pathLimit →
          Agree script s provider h) ∧
    (¬ ∀ (script : Path) (s : PatchSet) (provider : SourceMap.Provider OnTree)
        (answer : Path → Text → Answer) (h : TreeHost), Answering provider answer →
      h.tree.Plain → h.tree.isDirectoryAt h.working script = false → script.backup.Fits →
        (Tree.temporaryPath h.working script).text.utf8ByteSize ≤ pathLimit →
          Agree script s provider h) ∧
    ¬ ∀ (script : Path) (s : PatchSet) (provider : SourceMap.Provider OnTree)
        (answer : Path → Text → Answer) (h : TreeHost), Answering provider answer →
      h.tree.Plain → h.tree.isDirectoryAt h.working script = false → script.text ≠ "" →
        script.backup.Fits → Agree script s provider h := by
  refine ⟨fun hclaim => ?_, fun hclaim => ?_, fun hclaim => ?_⟩
  · have hlong := tooLong_replicate
    generalize String.ofList (List.replicate 250 'a') = file at hlong
    have hplain := plain_hostWith hlong.isName
    have hpristine : pristineIn (hostWith file) (fromAbove 0 file) = .ok ['x'] :=
      pristineIn_of_absent hlong.read_eq (Tree.present_of_not_fits hlong.not_fits)
    have hagree := hclaim (fromAbove 0 file) brokenSet (SourceMap.fixed (.ok cutMap)) _
      (hostWith file) (answering_fixed _) hplain (Tree.isDirectoryAt_of_read hlong.read_eq)
        (text_fromAbove_ne 0 file) (by rw [temporaryPath_fromAbove_zero _ hlong.isName]; decide)
    exact not_agree (answering_fixed _) hplain.no_link hpristine
      (fun hroom => hlong.not_fits hroom.backup) hagree
  · have hplain : (hostWith backupSuffix).tree.Plain := plain_hostWith (by decide)
    have hpristine : pristineIn (hostWith backupSuffix) ⟨""⟩ = .ok ['x'] :=
      pristineIn_eq_ok_iff.mpr (eq_ok_of_toOption (by decide +kernel))
    obtain ⟨l, hlocate, -⟩ := Tree.read_eq_ok_iff.mp (pristineIn_eq_ok_iff.mp hpristine)
    have hagree := hclaim ⟨""⟩ brokenSet (SourceMap.fixed (.ok cutMap)) _ (hostWith backupSuffix)
      (answering_fixed _) hplain (by decide +kernel) (Tree.fits_of_locate hlocate)
        (by decide +kernel)
    exact not_agree (answering_fixed _) hplain.no_link hpristine
      (fun hroom => hroom.text_ne rfl) hagree
  · have hname : IsName "x" := by decide
    have hplain := plain_hostWith hname
    have hfits : (fromAbove 1362 "x").Fits := (fits_fromAbove_iff hname _).mpr (by decide)
    have hbackup : (fromAbove 1362 "x").backup.Fits := by
      rw [backup_fromAbove]
      exact (fits_fromAbove_iff (by decide) _).mpr (by decide)
    have hread := read_fromAbove hname (by decide) hfits
    have habsent : (hostWith "x").tree.present [] (fromAbove 1362 "x").backup = false := by
      rw [backup_fromAbove] at hbackup ⊢
      exact present_fromAbove (by decide) (by decide) hbackup (by decide)
    have hpristine : pristineIn (hostWith "x") (fromAbove 1362 "x") = .ok ['x'] :=
      pristineIn_of_absent hread habsent
    have hagree := hclaim (fromAbove 1362 "x") brokenSet (SourceMap.fixed (.ok cutMap)) _
      (hostWith "x") (answering_fixed _) hplain (Tree.isDirectoryAt_of_read hread)
        (text_fromAbove_ne 1362 "x") hbackup
    have hlong := pathLimit_lt_temporaryPath (hostWith "x").working hname (n := 1361) (by decide)
    exact not_agree (answering_fixed _) hplain.no_link hpristine
      (fun hroom => Nat.not_le.mpr hlong hroom.new_file) hagree

end TextPatch.Bundle
