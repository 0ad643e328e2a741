/-
# Restorations that are under way

A restoration moves the recorded files back from their backups, one after the other.  In a plain
tree whose backups are files, moving a file back changes what is at its place and at that of its
backup, or nothing (`PlaceStep`).

Several names can lead to one place.  The first of them moves the file back, and the others find no
backup.  What is known when some names have been dealt with is therefore said of places, in
comparison with the tree at first (`MovedBack`): where one of the names leads to a file that had a
backup, the file holds what the backup held, and the backup is gone; all other places are as they
were.  Names that lead to the manifest or to a backup are left out of account, since they would
make the places of different names overlap (`Apart`).

`Underway.file` is the step and `Underway.files` is the run: however it ends, it has dealt with the
first names, and if it ends well, with all of them.
-/
import TextPatch.Proofs.Extensions.Undo
import TextPatch.Proofs.Files.Beside

namespace TextPatch

/-! ## 1. Recorded names -/

namespace Tree

/-- Whatever is called like a backup is a file. -/
def BackupsAreFiles (t : Tree) : Prop :=
  ∀ k s x, IsBackupName s → t.get? (k ++ [s]) = some x → ∃ b, x = .file b

/-- Whether all entries of a tree that are called like backups are files. -/
def hasFileBackups (t : Tree) : Bool :=
  t.entries.all fun p => p.1.getLast?.all fun s => !decide (IsBackupName s) || p.2.content?.isSome

theorem backupsAreFiles_of_hasFileBackups {t : Tree} (h : t.hasFileBackups = true) :
    t.BackupsAreFiles := by
  intro k s x hs hx
  have hp := List.all_eq_true.mp h _ (mem_of_get? (by simp) hx)
  cases x with
  | file b => exact ⟨b, rfl⟩
  | _ => simp [hs, Entry.content?] at hp

end Tree

namespace Restore

/-- A name that leads neither to the manifest nor to an entry that is called like a backup. -/
def Ordinary (name : String) : Prop :=
  ∀ names ∈ (⟨name⟩ : Path).inside?, names ≠ [manifestName] ∧
    ∀ s ∈ names.getLast?, ¬ IsBackupName s

instance (name : String) : Decidable (Ordinary name) :=
  inferInstanceAs (Decidable (∀ names ∈ _, _ ∧ ∀ s ∈ _, _))

/-- A name leads from `l` to the entry `s` of the directory `k`. -/
def NamedAt (l : Location) (name : String) (k : Location) (s : String) : Prop :=
  ∃ names, (⟨name⟩ : Path).inside? = some names ∧ l ++ names = k ++ [s]

/-- Wherever a name leads from `l`, that is neither the manifest nor called like a backup. -/
def Apart (l : Location) (name : String) : Prop :=
  ∀ k s, NamedAt l name k s → ¬ IsBackupName s ∧ k ++ [s] ≠ l ++ [manifestName]

variable {l k : Location} {name s : String} {done : List String} {t₀ t t' : Tree} {x : Entry}

theorem NamedAt.unique {k' : Location} {s' : String} (h : NamedAt l name k s)
    (h' : NamedAt l name k' s') : k' = k ∧ s' = s := by
  obtain ⟨names, hinside, hplace⟩ := h
  obtain ⟨names', hinside', hplace'⟩ := h'
  rw [hinside] at hinside'
  cases hinside'
  exact concat_inj (hplace'.symm.trans hplace)

/-- In a directory, ordinary names lead to ordinary places.  One that leads to the directory itself
is no exception, for that is not called like a backup. -/
theorem Ordinary.apart (h : Ordinary name) (hb : t.BackupsAreFiles)
    (hl : t.get? l = some .directory) : Apart l name := by
  rintro k s ⟨names, hinside, hplace⟩
  obtain ⟨hmanifest, hbackup⟩ := h names hinside
  rcases List.eq_nil_or_concat names with rfl | ⟨k', u, rfl⟩
  · rw [List.append_nil] at hplace
    subst hplace
    refine ⟨fun hs => ?_, by simp⟩
    obtain ⟨b, hfile⟩ := hb k s _ hs hl
    cases hfile
  · rw [List.concat_eq_append] at hmanifest hbackup hplace
    rw [← List.append_assoc] at hplace
    obtain ⟨rfl, rfl⟩ := concat_inj hplace
    refine ⟨hbackup u (by simp), fun heq => hmanifest ?_⟩
    rw [List.append_assoc] at heq
    exact List.append_cancel_left heq

/-! ## 2. Places from which files have been moved back -/

/-- A place at which none of some names has moved anything. -/
def Spared (l : Location) (done : List String) (t : Tree) (z : Location) : Prop :=
  ∀ name ∈ done, ∀ k s, NamedAt l name k s → (t.get? (k ++ [s ++ backupSuffix])).isSome →
    z ≠ k ++ [s] ∧ z ≠ k ++ [s ++ backupSuffix]

/-- The files to which some names lead from `l` have been moved back, where there was a backup. -/
structure MovedBack (l : Location) (done : List String) (t t' : Tree) : Prop where
  moved : ∀ name ∈ done, ∀ k s x, NamedAt l name k s →
    t.get? (k ++ [s ++ backupSuffix]) = some x →
      t'.get? (k ++ [s]) = some x ∧ t'.get? (k ++ [s ++ backupSuffix]) = none
  others : ∀ z, Spared l done t z → t'.get? z = t.get? z

theorem Spared.mono {names : List String} {z : Location} (h : Spared l names t z)
    (hsub : ∀ name ∈ done, name ∈ names) : Spared l done t z :=
  fun name hname => h name (hsub name hname)

namespace MovedBack

theorem refl (l : Location) (t : Tree) : MovedBack l [] t t := ⟨by simp, fun _ _ => rfl⟩

variable (hm : MovedBack l done t₀ t) (hdone : ∀ name ∈ done, Apart l name)
include hm hdone

/-- **A file is untouched or it has been moved back**, whatever names lead to it. -/
theorem file_cases (hs : ¬ IsBackupName s) :
    (t.get? (k ++ [s]) = t₀.get? (k ++ [s]) ∧
        t.get? (k ++ [s ++ backupSuffix]) = t₀.get? (k ++ [s ++ backupSuffix])) ∨
      ∃ x, t₀.get? (k ++ [s ++ backupSuffix]) = some x ∧ t.get? (k ++ [s]) = some x ∧
        t.get? (k ++ [s ++ backupSuffix]) = none := by
  by_cases hnamed : ∃ name ∈ done, NamedAt l name k s ∧
      (t₀.get? (k ++ [s ++ backupSuffix])).isSome
  · obtain ⟨name, hname, hplace, hsome⟩ := hnamed
    obtain ⟨x, hx⟩ := Option.isSome_iff_exists.mp hsome
    exact Or.inr ⟨x, hx, hm.moved name hname k s x hplace hx⟩
  · refine Or.inl ⟨hm.others _ ?_, hm.others _ ?_⟩ <;> intro name hname k' s' hplace hsome
    · refine ⟨fun heq => ?_, fun heq => hs ⟨s', (concat_inj heq).2⟩⟩
      obtain ⟨rfl, rfl⟩ := concat_inj heq
      exact hnamed ⟨name, hname, hplace, hsome⟩
    · refine ⟨fun heq => (hdone name hname k' s' hplace).1 ⟨s, (concat_inj heq).2.symm⟩,
        fun heq => ?_⟩
      obtain ⟨rfl, hsuffix⟩ := concat_inj heq
      obtain rfl := backup_injective hsuffix
      exact hnamed ⟨name, hname, hplace, hsome⟩

/-- The next name leads to a file without a backup. -/
theorem concat_missing (hname : Apart l name)
    (hnone : ∀ k s, NamedAt l name k s → t.get? (k ++ [s ++ backupSuffix]) = none) :
    MovedBack l (done ++ [name]) t₀ t := by
  refine ⟨fun name' hmem k s x hplace hx => ?_, fun z hz => hm.others z (hz.mono (by simp_all))⟩
  rcases List.mem_append.mp hmem with hmem | hmem
  · exact hm.moved name' hmem k s x hplace hx
  · obtain rfl := List.mem_singleton.mp hmem
    have hgone := hnone k s hplace
    -- there was a backup: it has been moved under another name
    rcases hm.file_cases hdone (hname k s hplace).1 with ⟨-, hsame⟩ | ⟨x', hx', hfile, -⟩
    · rw [hgone, hx] at hsame
      cases hsame
    · rw [hx] at hx'
      cases hx'
      exact ⟨hfile, hgone⟩

/-- The next name leads to a file that is moved back. -/
theorem concat_moved (hname : Apart l name) (hplace : NamedAt l name k s)
    (hx : t.get? (k ++ [s ++ backupSuffix]) = some x)
    (hget : ∀ z, t'.get? z = if z = k ++ [s ++ backupSuffix] then none
      else if z = k ++ [s] then some x else t.get? z) :
    t₀.get? (k ++ [s ++ backupSuffix]) = some x ∧ MovedBack l (done ++ [name]) t₀ t' := by
  have hs := (hname k s hplace).1
  have hfirst : t₀.get? (k ++ [s ++ backupSuffix]) = some x := by
    rcases hm.file_cases hdone hs (k := k) with ⟨-, hsame⟩ | ⟨-, -, -, hnone⟩
    · rw [← hsame, hx]
    · rw [hnone] at hx
      cases hx
  refine ⟨hfirst, fun name' hmem k' s' x' hplace' hx' => ?_, fun z hz => ?_⟩
  · by_cases heq : k' = k ∧ s' = s
    · obtain ⟨rfl, rfl⟩ := heq
      rw [hfirst] at hx'
      cases hx'
      rw [hget, hget, if_neg (backup_ne_self k' s').symm, if_pos rfl, if_pos rfl]
      exact ⟨rfl, rfl⟩
    · have hmem : name' ∈ done := by
        refine (List.mem_append.mp hmem).resolve_right fun hmem => heq ?_
        obtain rfl := List.mem_singleton.mp hmem
        exact hplace.unique hplace'
      obtain ⟨hfile, hnone⟩ := hm.moved name' hmem k' s' x' hplace' hx'
      have hs' := (hdone name' hmem k' s' hplace').1
      rw [hget, if_neg fun h => hs' ⟨s, (concat_inj h).2⟩, if_neg fun h => heq (concat_inj h),
        hget, if_neg fun h => heq ⟨(concat_inj h).1, backup_injective (concat_inj h).2⟩,
        if_neg fun h => hs ⟨s', (concat_inj h).2.symm⟩]
      exact ⟨hfile, hnone⟩
  · obtain ⟨hfile, hbackup⟩ := hz name (by simp) k s hplace (by rw [hfirst]; rfl)
    rw [hget, if_neg hbackup, if_neg hfile]
    exact hm.others z (hz.mono (by simp_all))

end MovedBack

end Restore

/-! ## 3. One file -/

namespace Tree

variable {t : Tree} {k : Location} {s : String} {b : ByteArray}

section

variable (ht : t.Plain) (hbackup : t.get? (k ++ [s ++ backupSuffix]) = some (.file b))
  (hnot : t.get? (k ++ [s]) ≠ some .directory)
include ht hbackup hnot

/-- A file that is moved back holds what its backup held. -/
theorem Plain.get?_move_back (z : Location) :
    (t.move (k ++ [s ++ backupSuffix]) (k ++ [s])).get? z =
      if z = k ++ [s ++ backupSuffix] then none
      else if z = k ++ [s] then some (.file b) else t.get? z :=
  ht.get?_move_file hbackup (ht.parents k _ (by rw [hbackup]; rfl)) hnot (backup_ne_self k s) z

theorem Plain.isDirectory_move_back (z : Location) :
    (t.move (k ++ [s ++ backupSuffix]) (k ++ [s])).isDirectory z = t.isDirectory z := by
  rw [Bool.eq_iff_iff, isDirectory_iff, isDirectory_iff, ht.get?_move_back hbackup hnot]
  split
  · rename_i heq
    simp [heq, hbackup]
  · split
    · rename_i heq
      simp [heq, hnot]
    · rfl

theorem Plain.move_back (hnames : AreNames (k ++ [s])) :
    (t.move (k ++ [s ++ backupSuffix]) (k ++ [s])).Plain := by
  have hget := ht.get?_move_back hbackup hnot
  constructor
  · intro l target hl
    rw [hget] at hl
    split at hl
    · cases hl
    · split at hl
      · cases hl
      · exact ht.no_link l target hl
  · intro l hl
    rw [hget] at hl
    split at hl
    · cases hl
    · split at hl
      · rename_i heq
        exact heq ▸ hnames
      · exact ht.names l hl
  · intro l u hl
    have hdir : t.isDirectory l = true := by
      rw [hget] at hl
      split at hl
      · cases hl
      · split at hl
        · rename_i heq
          obtain ⟨rfl, -⟩ := concat_inj heq
          exact isDirectory_iff.mpr (ht.parents l _ (by rw [hbackup]; rfl))
        · exact isDirectory_iff.mpr (ht.parents l u hl)
    rwa [← isDirectory_iff, ht.isDirectory_move_back hbackup hnot]

theorem BackupsAreFiles.move_back (hb : t.BackupsAreFiles) :
    (t.move (k ++ [s ++ backupSuffix]) (k ++ [s])).BackupsAreFiles := by
  intro k' s' x hs' hx
  rw [ht.get?_move_back hbackup hnot] at hx
  split at hx
  · cases hx
  · split at hx
    · exact ⟨b, (Option.some.inj hx).symm⟩
    · exact hb k' s' x hs' hx

end

end Tree

namespace Restore

variable {e : Enclosure} {l : Location} {name : String} {done : List String} {h₀ h h' : TreeHost}

/-- How moving a recorded file back can end, at the place where the file stands. -/
inductive PlaceStep (l : Location) (name : String) (h : TreeHost) :
    Except ApplicationError Bool → TreeHost → Prop
  | moved {k : Location} {s : String} {b : ByteArray} {h' : TreeHost}
      (hplace : NamedAt l name k s) (hnames : AreNames (k ++ [s]))
      (hbackup : h.tree.get? (k ++ [s ++ backupSuffix]) = some (.file b))
      (hnot : h.tree.get? (k ++ [s]) ≠ some .directory)
      (htree : h'.tree = h.tree.move (k ++ [s ++ backupSuffix]) (k ++ [s]))
      (hworking : h'.working = h.working) : PlaceStep l name h (.ok true) h'
  | missing {h' : TreeHost}
      (hnone : ∀ k s, NamedAt l name k s → h.tree.get? (k ++ [s ++ backupSuffix]) = none)
      (hfiles : h.SameFiles h') : PlaceStep l name h (.ok false) h'
  | failed {cause : ApplicationError} {h' : TreeHost} (hfiles : h.SameFiles h') :
      PlaceStep l name h (.error cause) h'

/-- **Every way in which a recorded file can be moved back** in a plain tree. -/
theorem placeStep_of_restoreStep {r : Except ApplicationError Bool} (ht : h.tree.Plain)
    (hb : h.tree.BackupsAreFiles) (hroot : e.root = Path.ofNames l) (hl : AreNames l)
    (hstep : RestoreStep e name h r h') : PlaceStep l name h r h' := by
  cases hstep with
  | failed hfiles => exact .failed hfiles
  | missing hplace hrename hfiles =>
    obtain ⟨names, hinside, rfl⟩ := (Enclosure.place_eq_ok hroot hl).mp hplace
    refine .missing (fun k s hks => ?_) hfiles
    obtain ⟨names', hinside', hks⟩ := hks
    rw [hinside] at hinside'
    cases hinside'
    have hnames := hl.append (Path.areNames_of_inside? hinside)
    rw [hks] at hnames hrename
    rw [Path.backup_ofNames] at hrename
    rw [← Option.not_isSome_iff_eq_none]
    intro hsome
    exact Tree.rename_ne_notFound ht hsome hnames .of_backup hrename
  | moved hplace hrename hworking =>
    obtain ⟨names, hinside, rfl⟩ := (Enclosure.place_eq_ok hroot hl).mp hplace
    have hnames := hl.append (Path.areNames_of_inside? hinside)
    rcases List.eq_nil_or_concat (l ++ names) with hnil | ⟨k, s, hks⟩
    · -- the root of all files has no name
      rw [hnil] at hrename
      unfold Tree.rename at hrename
      obtain ⟨origin, -, hrename⟩ := bind_eq_ok.mp hrename
      obtain ⟨goal, hgoal, -⟩ := bind_eq_ok.mp hrename
      exact absurd hgoal Tree.namedPlace_root
    · rw [List.concat_eq_append] at hks
      rw [hks] at hnames hrename
      rw [Path.backup_ofNames] at hrename
      obtain ⟨x, hx, hmay, -, -, htree⟩ :=
        Tree.rename_ofNames ht.no_link hnames.backup hnames (backup_ne_self k s) hrename
      obtain ⟨b, rfl⟩ := hb k _ x (isBackupName_backup s) hx
      exact .moved ⟨names, hinside, hks⟩ hnames hx
        ((Tree.mayReplace_file_iff _ b _).mp hmay) htree hworking

/-- How a restoration stands that began on a host `h₀`, when the names `done` have been dealt
with. -/
structure Underway (l : Location) (done : List String) (h₀ h : TreeHost) : Prop where
  plain : h.tree.Plain
  backups : h.tree.BackupsAreFiles
  working : h.working = h₀.working
  directories : ∀ z, h.tree.isDirectory z = h₀.tree.isDirectory z
  movedBack : MovedBack l done h₀.tree h.tree

namespace Underway

theorem start (ht : h.tree.Plain) (hb : h.tree.BackupsAreFiles) : Underway l [] h h :=
  ⟨ht, hb, rfl, fun _ => rfl, .refl l h.tree⟩

theorem of_sameFiles (hu : Underway l done h₀ h) (hfiles : h.SameFiles h') :
    Underway l done h₀ h' := by
  obtain ⟨htree, hworking⟩ := hfiles
  constructor
  · exact htree ▸ hu.plain
  · exact htree ▸ hu.backups
  · exact hworking.trans hu.working
  · exact htree ▸ hu.directories
  · exact htree ▸ hu.movedBack

/-- **Moving one file back** leads to the next name, unless it fails.  It answers that there was a
backup only if there was one at first. -/
theorem file {r : Except ApplicationError Bool} (hu : Underway l done h₀ h)
    (hdone : ∀ n ∈ done, Apart l n) (hname : Apart l name) (hstep : PlaceStep l name h r h') :
    (∀ cause, r = .error cause → h.SameFiles h') ∧
      ∀ hadBackup, r = .ok hadBackup → Underway l (done ++ [name]) h₀ h' ∧
        (hadBackup = true → ∃ k s, NamedAt l name k s ∧
          (h₀.tree.get? (k ++ [s ++ backupSuffix])).isSome) := by
  cases hstep with
  | failed hfiles => exact ⟨fun _ _ => hfiles, by simp⟩
  | missing hnone hfiles =>
    refine ⟨by simp, fun hadBackup hr => ?_⟩
    obtain rfl := Except.ok.inj hr
    have hnext : Underway l (done ++ [name]) h₀ h :=
      { hu with movedBack := hu.movedBack.concat_missing hdone hname hnone }
    exact ⟨hnext.of_sameFiles hfiles, by simp⟩
  | moved hplace hnames hbackup hnot htree hworking =>
    obtain ⟨hfirst, hmoved⟩ := hu.movedBack.concat_moved hdone hname hplace hbackup
      (hu.plain.get?_move_back hbackup hnot)
    refine ⟨by simp, fun _ _ => ⟨?_, fun _ => ⟨_, _, hplace, by rw [hfirst]; rfl⟩⟩⟩
    constructor
    · exact htree ▸ hu.plain.move_back hbackup hnot hnames
    · exact htree ▸ Tree.BackupsAreFiles.move_back hu.plain hbackup hnot hu.backups
    · exact hworking.trans hu.working
    · intro z
      rw [htree, hu.plain.isDirectory_move_back hbackup hnot, hu.directories]
    · exact htree ▸ hmoved

/-! ## 4. All files -/

/-- What the answer to moving the files of some names back says. -/
structure Answers (l : Location) (names : List String) (h₀ : TreeHost)
    (answer : List String × List String) : Prop where
  perm : (answer.1 ++ answer.2).Perm names
  hadBackup : ∀ name ∈ answer.1, ∃ k s, NamedAt l name k s ∧
    (h₀.tree.get? (k ++ [s ++ backupSuffix])).isSome

/-- **Moving files back** gets as far as it gets.  If it does not fail, all have been dealt with. -/
theorem files (hroot : e.root = Path.ofNames l) (hl : AreNames l) :
    ∀ {names done : List String} {h h' : TreeHost}
      {r : Except ApplicationError (List String × List String)},
      Underway l done h₀ h → (∀ n ∈ done, Apart l n) → (∀ n ∈ names, Apart l n) →
        (Restore.files e names : OnTree _) h = (r, h') →
          ∃ more, more <+: names ∧ Underway l (done ++ more) h₀ h' ∧
            ∀ answer, r = .ok answer → more = names ∧ Answers l names h₀ answer
  | [], done, h, h', r, hu, _, _, hrun => by
    obtain ⟨rfl, rfl⟩ := Prod.mk.inj hrun
    refine ⟨[], List.nil_prefix, by simpa using hu, fun answer hr => ⟨rfl, ?_⟩⟩
    obtain rfl := Except.ok.inj hr
    exact ⟨by simp, by simp⟩
  | name :: rest, done, h, h', r, hu, hdone, hnames, hrun => by
    have hname := hnames name (by simp)
    rcases files_step hrun with ⟨cause, hfile, rfl⟩ | ⟨hadBackup, h₁, r₁, hfile, hrest, rfl⟩
    · have hstep := placeStep_of_restoreStep hu.plain hu.backups hroot hl (restoreStep_file hfile)
      have hsame := (hu.file hdone hname hstep).1 cause rfl
      exact ⟨[], List.nil_prefix, by simpa using hu.of_sameFiles hsame, by simp⟩
    · have hstep := placeStep_of_restoreStep hu.plain hu.backups hroot hl (restoreStep_file hfile)
      obtain ⟨hnext, hhad⟩ := (hu.file hdone hname hstep).2 hadBackup rfl
      have hdone' : ∀ n ∈ done ++ [name], Apart l n := by
        intro n hn
        rcases List.mem_append.mp hn with hn | hn
        · exact hdone n hn
        · exact List.mem_singleton.mp hn ▸ hname
      obtain ⟨more, hmore, hu', hanswer⟩ :=
        files hroot hl hnext hdone' (fun n hn => hnames n (by simp [hn])) hrest
      refine ⟨name :: more, List.cons_prefix_cons.mpr ⟨rfl, hmore⟩, by simpa using hu', ?_⟩
      intro answer hr
      cases r₁ with
      | error cause => cases hr
      | ok answer₁ =>
        obtain ⟨rfl, hperm, hbackups⟩ := hanswer answer₁ rfl
        obtain rfl := Except.ok.inj hr
        cases hadBackup with
        | false =>
          exact ⟨rfl, List.perm_middle.trans (hperm.cons name), hbackups⟩
        | true =>
          refine ⟨rfl, hperm.cons name, fun n hn => ?_⟩
          rcases List.mem_cons.mp hn with rfl | hn
          · exact hhad rfl
          · exact hbackups n hn

end Underway

end Restore

end TextPatch
