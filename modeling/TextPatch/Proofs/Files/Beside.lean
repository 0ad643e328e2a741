/-
# A file and its backup

The backup of a file stands next to it.  In a tree without links this can be read off the two paths:
the backup is looked up in the directory in which the file is, under the name of the file and the
suffix.  Two things can get in the way, and both are said exactly.

* The backup breaks a limit that the file does not break, for its name and its path are longer
  (`Path.Fits`).
* The backup is there although the path of the file does not end with a name: the file would be a
  directory, or the path is empty (`Names.of_backup`).

Apart from that, either can be found from the other (`exists_beside`), and from then on every
operation on one of them is about its own place (`Beside`).
-/
import TextPatch.Proofs.Files.Views

namespace TextPatch

/-- A path that breaks none of the limits of a file system. -/
structure Path.Fits (p : Path) : Prop where
  size_le : p.text.utf8ByteSize ≤ pathLimit
  short : ∀ s, Step.name s ∈ p.steps → s.utf8ByteSize ≤ nameLimit

/-- The last step to a backup is a name. -/
theorem Step.ofPiece_backup (f : Text) :
    Step.ofPiece (f ++ backupSuffix.toList) = .name (String.ofList f ++ backupSuffix) := by
  have hlong : 2 < (f ++ backupSuffix.toList).length := by
    rw [List.length_append]
    exact Nat.lt_of_lt_of_le (by decide) (Nat.le_add_left _ _)
  unfold Step.ofPiece
  rw [if_neg, if_neg, String.ofList_append, String.ofList_toList]
  · intro heq
    rw [heq] at hlong
    exact absurd hlong (by decide)
  · rintro (heq | heq) <;>
    · rw [heq] at hlong
      exact absurd hlong (by decide)

/-- The steps to the backup of a file are those to the file, but for the last one. -/
theorem Path.exists_steps_backup (p : Path) : ∃ before f, '/' ∉ f ∧
    p.steps = before ++ [Step.ofPiece f] ∧
      p.backup.steps = before ++ [.name (String.ofList f ++ backupSuffix)] ∧
        p.backup.hasRoot = p.hasRoot := by
  have hsuffix : p.backup.text.toList = p.text.toList ++ backupSuffix.toList :=
    String.toList_append
  obtain ⟨before, f, hf, hsteps, htext⟩ := Path.exists_steps p
  have hf' : '/' ∉ f ++ backupSuffix.toList :=
    fun hmem => (List.mem_append.mp hmem).elim hf (by decide)
  refine ⟨before, f, hf, hsteps, ?_, ?_⟩
  · rw [← Step.ofPiece_backup, steps, pieces, hsuffix]
    obtain ⟨htext, rfl⟩ | ⟨u, htext, rfl⟩ := htext
    · rw [htext, Text.fields_of_not_mem hf']
      rfl
    · rw [htext, List.append_assoc, List.cons_append, Text.fields_append_sep,
        Text.fields_of_not_mem hf', Step.ofPieces_concat]
      rfl
  · unfold hasRoot
    rw [hsuffix]
    cases p.text.toList with
    | nil => decide
    | cons c t => rfl

/-- The backup of a file has another name. -/
theorem backup_ne_self (k : Location) (s : String) : k ++ [s ++ backupSuffix] ≠ k ++ [s] := by
  intro heq
  have hs : s ++ backupSuffix = s := by simpa using heq
  have hlen := congrArg String.length hs
  rw [String.length_append] at hlen
  exact absurd hlen (Nat.ne_of_gt (Nat.lt_add_of_pos_right (by decide)))

namespace Tree

variable {t : Tree} {working l k z : Location} {links : List Location} {p : Path} {s u : String}
  {steps : List Step} {b content : ByteArray}

/-! ## 1. Walks without links -/

/-- No step of a walk has a name that is too long. -/
theorem Follows.short (h : Follows t links l steps z) :
    ∀ s, Step.name s ∈ steps → s.utf8ByteSize ≤ nameLimit := by
  induction h with
  | done l => simp
  | here _ _ ih => exact fun s hs => ih s (by simpa using hs)
  | up _ _ ih => exact fun s hs => ih s (by simpa using hs)
  | name _ hlen _ _ ih =>
    intro s hs
    rcases List.mem_cons.mp hs with heq | hs
    · cases heq
      exact hlen
    · exact ih s hs
  | link _ hlen _ _ ih =>
    intro s hs
    rcases List.mem_cons.mp hs with heq | hs
    · cases heq
      exact hlen
    · exact ih s (List.mem_append_right _ hs)

/-- What can be read is no directory. -/
theorem isDirectoryAt_of_read (h : t.read working p = .ok b) :
    t.isDirectoryAt working p = false := by
  obtain ⟨l, hlocate, hget⟩ := read_eq_ok_iff.mp h
  unfold isDirectoryAt entryAt
  rw [hlocate]
  simp only [hget]

/-- A path that leads anywhere breaks no limit. -/
theorem fits_of_locate (h : t.locate working true p = .ok l) : p.Fits := by
  obtain ⟨-, -, hsize, hwalk⟩ := locate_eq_ok_iff.mp h
  obtain ⟨links, -, hfollows⟩ := walk_eq_ok_iff.mp hwalk
  exact ⟨hsize, hfollows.short⟩

theorem present_of_not_fits (h : ¬ p.Fits) : t.present working p = false := by
  rw [Bool.eq_false_iff]
  intro hpresent
  obtain ⟨l, hlocate, -⟩ := present_eq_true_iff.mp hpresent
  exact h (fits_of_locate hlocate)

/-- Without links, a walk depends on the directories only. -/
theorem Follows.congr {t' : Tree} (ht : t.Unlinked) (ht' : t'.Unlinked)
    (hdirs : ∀ q, t'.isDirectory q = t.isDirectory q) (h : Follows t links l steps z) :
    Follows t' links l steps z := by
  induction h with
  | done l => exact .done l
  | here hdir _ ih => exact .here ((hdirs _).trans hdir) ih
  | up hdir _ ih => exact .up ((hdirs _).trans hdir) ih
  | name hdir hlen _ _ ih => exact .name ((hdirs _).trans hdir) hlen (ht' _) ih
  | link _ _ hlink _ _ => exact absurd hlink (ht _ _)

/-- So does what a path leads to. -/
theorem Unlinked.locate_congr {t' : Tree} (ht : t.Unlinked) (ht' : t'.Unlinked)
    (hdirs : ∀ q, t'.isDirectory q = t.isDirectory q)
    (h : t.locate working true p = .ok l) : t'.locate working true p = .ok l := by
  obtain ⟨hzero, hempty, hsize, hwalk⟩ := locate_eq_ok_iff.mp h
  obtain ⟨links, hlinks, hfollows⟩ := walk_eq_ok_iff.mp hwalk
  exact locate_eq_ok_iff.mpr
    ⟨hzero, hempty, hsize, (hfollows.congr ht ht' hdirs).walk_eq hlinks⟩

/-- Where a path leads does not depend on what files hold. -/
theorem Unlinked.locate_set (ht : t.Unlinked) (hz : t.isDirectory z = false)
    (h : t.locate working true p = .ok l) :
    (t.set z (.file content)).locate working true p = .ok l :=
  ht.locate_congr (ht.set (ne_nil_of_isDirectory hz)) (fun _ => isDirectory_set hz) h

/-- Which entry a path names does not depend on what files hold. -/
theorem Unlinked.names_set (ht : t.Unlinked) (hz : t.isDirectory z = false)
    (h : t.Names working p k s) : (t.set z (.file content)).Names working p k s := by
  obtain ⟨before, links, hsteps, hlinks, hfollows⟩ := h.steps
  refine ⟨h.no_zero, h.size_le, ⟨before, links, hsteps, hlinks, ?_⟩,
    (isDirectory_set hz).trans h.directory, h.short⟩
  exact hfollows.congr ht (ht.set (ne_nil_of_isDirectory hz)) fun _ => isDirectory_set hz

/-- What is written is read. -/
theorem Unlinked.read_of_write (ht : t.Unlinked) {t' : Tree}
    (h : t.write working p content = .ok t') : t'.read working p = .ok content := by
  obtain ⟨z, hlocate, hz, rfl⟩ := write_eq_ok_iff.mp h
  exact read_eq_ok_iff.mpr ⟨z, ht.locate_set hz hlocate, get?_set_file hz⟩

/-- **A path that leads to no directory** names an entry. -/
theorem Plain.exists_names (ht : t.Plain) (h : t.locate working true p = .ok l)
    (hl : t.isDirectory l = false) : ∃ k s, l = k ++ [s] ∧ t.Names working p k s := by
  obtain ⟨before, f, -, hsteps, -⟩ := Path.exists_steps p
  obtain ⟨-, -, -, hwalk⟩ := locate_eq_ok_iff.mp h
  obtain ⟨links, -, hfollows⟩ := walk_eq_ok_iff.mp hwalk
  rw [hsteps] at hfollows
  obtain ⟨q, ks, ms, -, -, hlast⟩ := follows_append hfollows
  cases hstep : Step.ofPiece f with
  | here =>
    rw [hstep] at hlast
    cases hlast with
    | here hdir hrest =>
      cases hrest
      rw [hdir] at hl
      cases hl
  | up =>
    rw [hstep] at hlast
    cases hlast with
    | up hdir hrest =>
      cases hrest
      rw [(ht.stands hdir).dropLast.isDirectory] at hl
      cases hl
  | name s =>
    rw [hstep] at hsteps
    obtain ⟨k, hnames⟩ := names_of_locate hsteps h
    have hplace := hnames.locate_eq (ht.no_link _)
    rw [h] at hplace
    exact ⟨k, s, Except.ok.inj hplace, hnames⟩

/-! ## 2. From one to the other -/

/-- The backup of a file, unless it breaks a limit. -/
theorem Names.backup_of_fits (h : t.Names working p k s) (hfits : p.backup.Fits) :
    t.Names working p.backup k (s ++ backupSuffix) := by
  obtain ⟨before, links, hsteps, hlinks, hfollows⟩ := h.steps
  obtain ⟨before', f, hf, hsteps', hbackup, hroot⟩ := Path.exists_steps_backup p
  rw [hsteps] at hsteps'
  obtain ⟨rfl, hlast⟩ := List.append_inj' hsteps' rfl
  have hstep : Step.ofPiece f = .name s := by simpa using hlast.symm
  obtain ⟨-, rfl⟩ := Step.isName_of_ofPiece hf hstep
  rw [String.ofList_toList] at hbackup
  refine ⟨?_, hfits.size_le, ⟨before, links, hbackup, hlinks, by rw [hroot]; exact hfollows⟩,
    h.directory, hfits.short _ (by simp [hbackup])⟩
  intro hzero
  rw [Path.backup, String.toList_append] at hzero
  exact (List.mem_append.mp hzero).elim h.no_zero (by decide)

/-- **The file of a backup**, unless that is a directory or its path is empty. -/
theorem Names.of_backup (ht : t.Plain) (h : t.Names working p.backup k u) (hp : p.text ≠ "")
    (hdir : t.isDirectoryAt working p = false) : ∃ s, t.Names working p k s := by
  obtain ⟨before', links, hsteps', hlinks, hfollows⟩ := h.steps
  obtain ⟨before, f, hf, hsteps, hbackup, hroot⟩ := Path.exists_steps_backup p
  rw [hbackup] at hsteps'
  obtain ⟨rfl, hlast⟩ := List.append_inj' hsteps' rfl
  obtain rfl : String.ofList f ++ backupSuffix = u := by simpa using hlast
  rw [hroot] at hfollows
  have hzero : '\x00' ∉ p.text.toList := fun hmem => h.no_zero (by
    rw [Path.backup, String.toList_append]
    exact List.mem_append_left _ hmem)
  have hsize : p.text.utf8ByteSize ≤ pathLimit := by
    have := h.size_le
    rw [Path.backup, String.utf8ByteSize_append] at this
    omega
  -- a path that led to a directory would be one
  have hno : ∀ {l}, Follows t links (if p.hasRoot then [] else working) p.steps l →
      t.isDirectory l = false := by
    intro l hl
    have hlocate : t.locate working true p = .ok l :=
      locate_eq_ok_iff.mpr ⟨hzero, by simpa using hp, hsize, hl.walk_eq hlinks⟩
    refine isDirectory_eq_false fun hget => ?_
    unfold isDirectoryAt entryAt at hdir
    rw [hlocate] at hdir
    simp only [hget] at hdir
    cases hdir
  cases hstep : Step.ofPiece f with
  | here =>
    have hl : Follows t (links ++ []) _ (before ++ [Step.here]) k :=
      hfollows.append (.here h.directory (.done k))
    rw [List.append_nil, ← hstep, ← hsteps] at hl
    have hnot := hno hl
    rw [h.directory] at hnot
    cases hnot
  | up =>
    have hl : Follows t (links ++ []) _ (before ++ [Step.up]) k.dropLast :=
      hfollows.append (.up h.directory (.done _))
    rw [List.append_nil, ← hstep, ← hsteps] at hl
    have hnot := hno hl
    rw [(ht.stands h.directory).dropLast.isDirectory] at hnot
    cases hnot
  | name s =>
    obtain ⟨-, rfl⟩ := Step.isName_of_ofPiece hf hstep
    have hshort := h.short
    rw [String.ofList_toList, String.utf8ByteSize_append] at hshort
    exact ⟨s, hzero, hsize, ⟨before, links, by rw [hsteps, hstep], hlinks, hfollows⟩,
      h.directory, by omega⟩

/-! ## 3. Side by side -/

/-- A file and its backup have a place in the same directory.  No directory stands at the place of
the file. -/
structure Beside (t : Tree) (working : Location) (p : Path) (k : Location) (s : String) : Prop where
  unlinked : t.Unlinked
  file : t.Names working p k s
  backup : t.Names working p.backup k (s ++ backupSuffix)
  not_directory : t.isDirectory (k ++ [s]) = false

theorem Names.beside (ht : t.Plain) (h : t.Names working p k s) (hfits : p.backup.Fits)
    (hdir : t.isDirectoryAt working p = false) : t.Beside working p k s where
  unlinked := ht.no_link
  file := h
  backup := h.backup_of_fits hfits
  not_directory := by
    unfold isDirectoryAt entryAt at hdir
    rw [h.locate_eq (ht.no_link _)] at hdir
    refine isDirectory_eq_false fun hget => ?_
    simp only [hget] at hdir
    cases hdir

/-- **Side by side stand** a file and its backup as soon as one of them can be read. -/
theorem exists_beside (ht : t.Plain) (hp : p.text ≠ "") (hfits : p.backup.Fits)
    (hdir : t.isDirectoryAt working p = false)
    (hread : t.read working p = .ok b ∨ t.read working p.backup = .ok b) :
    ∃ k s, t.Beside working p k s := by
  have hfile : ∀ {q : Path}, t.read working q = .ok b →
      ∃ k s, t.Names working q k s := by
    intro q hq
    obtain ⟨l, hlocate, hget⟩ := read_eq_ok_iff.mp hq
    obtain ⟨k, s, -, hnames⟩ :=
      ht.exists_names hlocate (isDirectory_eq_false (by rw [hget]; simp))
    exact ⟨k, s, hnames⟩
  rcases hread with hread | hread
  · obtain ⟨k, s, hnames⟩ := hfile hread
    exact ⟨k, s, hnames.beside ht hfits hdir⟩
  · obtain ⟨k, u, hbackup⟩ := hfile hread
    obtain ⟨s, hnames⟩ := hbackup.of_backup ht hp hdir
    exact ⟨k, s, hnames.beside ht hfits hdir⟩

namespace Beside

variable (h : t.Beside working p k s)
include h

theorem locate_file : t.locate working true p = .ok (k ++ [s]) :=
  h.file.locate_eq (h.unlinked _)

theorem locate_backup : t.locate working true p.backup = .ok (k ++ [s ++ backupSuffix]) :=
  h.backup.locate_eq (h.unlinked _)

theorem read_file : t.read working p = .ok b ↔ t.get? (k ++ [s]) = some (.file b) := by
  rw [read_eq_ok_iff, h.locate_file]
  simp

theorem read_backup :
    t.read working p.backup = .ok b ↔ t.get? (k ++ [s ++ backupSuffix]) = some (.file b) := by
  rw [read_eq_ok_iff, h.locate_backup]
  simp

/-- They stay side by side when one of them is written, or any other file. -/
theorem set (hz : t.isDirectory z = false) :
    (t.set z (.file content)).Beside working p k s where
  unlinked := h.unlinked.set (ne_nil_of_isDirectory hz)
  file := h.unlinked.names_set hz h.file
  backup := h.unlinked.names_set hz h.backup
  not_directory := (isDirectory_set hz).trans h.not_directory

theorem replace_eq (hmade : (temporaryPath working p).text.utf8ByteSize ≤ pathLimit)
    (content : ByteArray) :
    t.replace working p content = .ok (t.set (k ++ [s]) (.file content)) :=
  h.file.replace_eq h.not_directory hmade content

/-- A backup can be made of a file that can be read. -/
theorem copy_eq (hread : t.read working p = .ok b)
    (habsent : t.present working p.backup = false) :
    t.get? (k ++ [s ++ backupSuffix]) = none ∧
      t.copy working p p.backup = .ok (t.set (k ++ [s ++ backupSuffix]) (.file b)) := by
  have hnone : t.get? (k ++ [s ++ backupSuffix]) = none :=
    get?_of_not_present habsent h.locate_backup
  refine ⟨hnone, copy_eq_ok_iff.mpr ⟨b, hread, write_eq_ok_iff.mpr
    ⟨_, h.locate_backup, isDirectory_eq_false (by rw [hnone]; simp), rfl⟩⟩⟩

end Beside

end Tree

end TextPatch
