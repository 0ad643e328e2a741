/-
# Restoring moves back what is recorded

This file is about restorations of extensions in plain trees whose backups are files, with records
that name neither the manifest nor a backup, in whichever way a name is spelled.

* If a restoration ends well, the recorded files that had a backup hold what the backup held, the
  backups are gone, and apart from the manifest nothing else has changed (`Restored`).  The report
  names every recorded file once.  Restoring again finds nothing to do.
* If it fails, the manifest is as it was, and every recorded file is untouched or has been moved
  back (`Interrupted`).
* `restore_moves_back` says so for a restoration after any number of failed ones, in comparison with
  the host before the first one.  So a restoration that has failed can be taken up again.

A manifest without binary numbers is written as it has been read.  Other numbers need not survive,
since digits are dropped when they are read (`restore_drops_digits`).
-/
import Mathlib.Logic.Relation
import TextPatch.Proofs.Extensions.AllOrNothing
import TextPatch.Proofs.Extensions.Rereading
import TextPatch.Proofs.Extensions.Underway

namespace TextPatch

/-! ## 1. The manifest -/

/-- An extension stands at `l`, where a root leads, and `d` is its manifest. -/
structure OpenedAt (h : TreeHost) (root : Path) (l : Location) (d : Manifest) : Prop where
  leads : h.tree.locate h.working true root = .ok l
  names : AreNames (l ++ [manifestName])
  reaches : h.tree.Reaches (l ++ [manifestName])
  path_eq : d.path = Path.ofNames (l ++ [manifestName])
  holds : ∃ text : String, h.tree.get? (l ++ [manifestName]) = some (.file text.toUTF8) ∧
    Manifest.ofText d.path text = .ok d

section

variable {h h' : TreeHost} {root : Path} {l : Location} {d : Manifest}

/-- Where an extension stands that has been opened in a plain tree. -/
theorem Opened.exists_openedAt (ht : h.tree.Plain) {e : Enclosure} (ho : Opened h root e d) :
    ∃ l, e = ⟨Path.ofNames l⟩ ∧ OpenedAt h root l d := by
  obtain ⟨l, hleads, -, hroot⟩ := ho.root_eq
  obtain ⟨bytes, text, hread, hdecode, htext⟩ := ho.read_eq
  have hl := ht.areNames_of_locate hleads
  have hnames : AreNames (l ++ [manifestName]) :=
    hl.append (by simpa [AreNames] using manifestName_isName)
  have hpath : d.path = Path.ofNames (l ++ [manifestName]) := by
    rw [ho.path_eq, hroot, Path.join_manifestFile hl]
  rw [hpath] at hread
  obtain ⟨z, hlocate, hget⟩ := Tree.read_eq_ok_iff.mp hread
  obtain ⟨rfl, hreaches⟩ := (Tree.locate_ofNames_iff ht.no_link hnames).mp hlocate
  rw [← Host.toUTF8_of_decodeText hdecode] at hget
  exact ⟨l, congrArg Enclosure.mk hroot, hleads, hnames, hreaches, hpath, text, hget, htext⟩

namespace OpenedAt

theorem directory (ht : h.tree.Plain) (ho : OpenedAt h root l d) :
    h.tree.get? l = some .directory := by
  obtain ⟨text, hget, -⟩ := ho.holds
  exact ht.parents l manifestName (by rw [hget]; rfl)

theorem read_eq (ht : h.tree.Plain) (ho : OpenedAt h root l d) : ∃ text : String,
    h.tree.read h.working d.path = .ok text.toUTF8 ∧ Manifest.ofText d.path text = .ok d := by
  obtain ⟨text, hget, htext⟩ := ho.holds
  refine ⟨text, ?_, htext⟩
  rw [ho.path_eq, Tree.read_eq_ok_iff]
  exact ⟨_, (Tree.locate_ofNames_iff ht.no_link ho.names).mpr ⟨rfl, ho.reaches⟩, hget⟩

theorem opened (ht : h.tree.Plain) (ho : OpenedAt h root l d) :
    Opened h root ⟨Path.ofNames l⟩ d where
  root_eq := ⟨l, ho.leads, by rw [ho.directory ht]; rfl, rfl⟩
  path_eq := by rw [ho.path_eq, Path.join_manifestFile ho.names.left]
  read_eq := by
    obtain ⟨text, hread, htext⟩ := ho.read_eq ht
    exact ⟨_, text, hread, Manifest.decodeText_toUTF8 text, htext⟩

/-- It is opened in one way only. -/
theorem eq_of_opened (ht : h.tree.Plain) (ho : OpenedAt h root l d) {e : Enclosure} {d' : Manifest}
    (ho' : Opened h root e d') : e = ⟨Path.ofNames l⟩ ∧ d' = d := by
  have heq := ho'.openTarget_eq.symm.trans (ho.opened ht).openTarget_eq
  exact Prod.mk.inj (Except.ok.inj heq)

/-- The manifest can be replaced. -/
theorem replace_eq (ht : h.tree.Plain) (ho : OpenedAt h root l d) (new : ByteArray) :
    h.tree.replace h.working d.path new =
      .ok (h.tree.set (l ++ [manifestName]) (.file new)) := by
  obtain ⟨text, hread, -⟩ := ho.read_eq ht
  rw [ho.path_eq] at hread ⊢
  exact Tree.replace_ofNames ht.no_link ho.names (by decide) hread

/-- **An extension is opened again** as long as the directories are the same, with the manifest that
its file holds then. -/
theorem reopen (ho : OpenedAt h root l d) (ht : h.tree.Plain) (ht' : h'.tree.Plain)
    (hworking : h'.working = h.working)
    (hdirs : ∀ z, h'.tree.isDirectory z = h.tree.isDirectory z) {text : String} {d' : Manifest}
    (hget : h'.tree.get? (l ++ [manifestName]) = some (.file text.toUTF8))
    (htext : Manifest.ofText d.path text = .ok d') : OpenedAt h' root l d' where
  leads := by
    rw [hworking]
    exact Tree.Unlinked.locate_congr ht.no_link ht'.no_link hdirs ho.leads
  names := ho.names
  reaches := ho.reaches.congr hdirs
  path_eq := (Manifest.path_of_ofText htext).trans ho.path_eq
  holds := ⟨text, hget, by rwa [Manifest.path_of_ofText htext]⟩

section

variable {text : String} (ht : h.tree.Plain) (ho : OpenedAt h root l d)
  (htree : h'.tree = h.tree.set (l ++ [manifestName]) (.file text.toUTF8))
include htree

theorem get?_of_written :
    h'.tree.get? (l ++ [manifestName]) = some (.file text.toUTF8) := by
  rw [htree, Tree.get?_set_self _ _ (by simp)]

include ho

/-- Writing the manifest makes no directory. -/
theorem isDirectory_of_written (z : Location) :
    h'.tree.isDirectory z = h.tree.isDirectory z := by
  obtain ⟨text, hget, -⟩ := ho.holds
  rw [htree]
  exact Tree.isDirectory_set (Tree.isDirectory_eq_false (by rw [hget]; simp))

include ht

theorem plain_of_written : h'.tree.Plain := by
  obtain ⟨text, hget, -⟩ := ho.holds
  rw [htree]
  exact ht.set (ho.directory ht) manifestName_isName (by simp [hget]) _

/-- **What is opened then** is what has been written. -/
theorem of_written (hworking : h'.working = h.working) {e : Enclosure} {d' : Manifest}
    (ho' : Opened h' root e d') :
    OpenedAt h' root l d' ∧ Manifest.ofText d'.path text = .ok d' := by
  have hplain := ho.plain_of_written ht htree
  obtain ⟨l', -, hopened⟩ := ho'.exists_openedAt hplain
  have hleads : h'.tree.locate h'.working true root = .ok l := by
    rw [hworking]
    exact Tree.Unlinked.locate_congr ht.no_link hplain.no_link
      (ho.isDirectory_of_written htree) ho.leads
  obtain rfl := Except.ok.inj (hopened.leads.symm.trans hleads)
  obtain ⟨text', hget, htext⟩ := hopened.holds
  rw [get?_of_written htree] at hget
  obtain rfl : text = text' := String.toByteArray_inj.mp (Entry.file.inj (Option.some.inj hget))
  exact ⟨hopened, htext⟩

end

end OpenedAt

/-- **Restoring an extension without a record** writes its manifest and does nothing else. -/
theorem OpenedAt.extension_of_empty (ht : h.tree.Plain) (ho : OpenedAt h root l d)
    (hempty : d.applied = []) : ∃ h',
      (Restore.extension root : OnTree _) h = (.ok ⟨[], [], 0⟩, h') ∧
        h'.tree = h.tree.set (l ++ [manifestName]) (.file d.clear.written.toUTF8) := by
  have hnone : d.appliedFiles = [] := by
    rw [Manifest.appliedFiles, hempty]
    rfl
  have hreplace := ho.replace_eq ht d.clear.written.toUTF8
  rcases hrun : (Restore.extension root : OnTree _) h with ⟨r, h'⟩
  cases Restore.extensionRun hrun with
  | unopened hnot => exact absurd (ho.opened ht) (hnot _ _)
  | failed ho' hfiles =>
    obtain ⟨rfl, rfl⟩ := ho.eq_of_opened ht ho'
    rw [hnone] at hfiles
    cases (Prod.mk.inj hfiles).1
  | unwritten ho' hfiles hfails =>
    obtain ⟨rfl, rfl⟩ := ho.eq_of_opened ht ho'
    rw [hnone] at hfiles
    obtain ⟨-, rfl⟩ := Prod.mk.inj hfiles
    rw [hreplace] at hfails
    cases hfails
  | written ho' hfiles hwrites =>
    obtain ⟨rfl, rfl⟩ := ho.eq_of_opened ht ho'
    rw [hnone] at hfiles
    obtain ⟨hanswer, rfl⟩ := Prod.mk.inj hfiles
    obtain ⟨rfl, rfl⟩ := Prod.mk.inj (Except.ok.inj hanswer)
    rw [hempty]
    exact ⟨h', rfl, Except.ok.inj (hwrites.symm.trans hreplace)⟩

end

namespace Manifest

theorem nodup_addNew : ∀ {rest items : List String}, items.Nodup → (addNew items rest).Nodup
  | [], _, h => h
  | s :: rest, items, h => by
    rw [addNew]
    refine nodup_addNew ?_
    split
    · exact h
    · rename_i hnew
      rw [List.nodup_append]
      refine ⟨h, List.nodup_singleton s, fun a ha b hb heq => hnew ?_⟩
      obtain rfl := List.mem_singleton.mp hb
      simpa [heq] using ha

theorem nodup_appliedFiles (d : Manifest) : d.appliedFiles.Nodup := nodup_addNew List.nodup_nil

section

variable {path path' : Path} {text : String} {d d' : Manifest}

/-- A manifest that has been read and emptied is read with an empty record. -/
theorem applied_of_clear (htext : ofText path text = .ok d)
    (hread : ofText path' d.clear.written = .ok d') : d'.applied = [] := by
  rw [applied_of_written (distinct_of_ofText htext).clear hread, applied_clear]

/-- Without binary numbers, it is read as it has been written. -/
theorem ofText_clear (htext : ofText path text = .ok d) (hints : d.Integral) :
    ofText d.path d.clear.written = .ok d.clear :=
  ((exact_of_ofText htext hints).act .clear).ofText_written

end

/-- Emptying an empty record changes nothing. -/
theorem clear_clear (d : Manifest) : d.clear.clear = d.clear := by
  have hinsert : ∀ (ms : Members) (key : String) (v : Json),
      (ms.insert key v).insert key v = ms.insert key v := by
    intro ms key v
    induction ms with
    | nil => simp [Members.insert]
    | cons m ms ih =>
      obtain ⟨k, w⟩ := m
      rw [Members.insert]
      split
      · simp_all [Members.insert]
      · simp_all [Members.insert]
  unfold clear
  simp only [hinsert]

end Manifest

/-! ## 2. Restoring again -/

namespace OpenedAt

variable {h h' h'' : TreeHost} {root : Path} {l : Location} {d : Manifest}

section

variable (ht : h.tree.Plain) (ho : OpenedAt h root l d)
  (htree : h'.tree = h.tree.set (l ++ [manifestName]) (.file d.clear.written.toUTF8))
  (hworking : h'.working = h.working)
include ht ho htree hworking

/-- **Once the record has been emptied**, restoring again finds nothing to do. -/
theorem nothing_to_do {report : RestoreReport}
    (hrun : (Restore.extension root : OnTree _) h' = (.ok report, h'')) :
    report = ⟨[], [], 0⟩ ∧
      ∀ z, z ≠ l ++ [manifestName] → h''.tree.get? z = h'.tree.get? z := by
  obtain ⟨text, -, htext⟩ := ho.holds
  obtain ⟨e, d', ho'⟩ : ∃ e d', Opened h' root e d' := by
    cases Restore.extensionRun hrun with
    | written ho' => exact ⟨_, _, ho'⟩
  obtain ⟨hopened, hread⟩ := ho.of_written ht htree hworking ho'
  obtain ⟨h₂, hempty, htree₂⟩ := hopened.extension_of_empty (ho.plain_of_written ht htree)
    (Manifest.applied_of_clear htext hread)
  obtain ⟨hreport, rfl⟩ := Prod.mk.inj (hrun.symm.trans hempty)
  refine ⟨Except.ok.inj hreport, fun z hz => ?_⟩
  rw [htree₂, Tree.get?_set_ne _ _ hz]

/-- Without binary numbers, it succeeds and changes nothing. -/
theorem changes_nothing (hints : d.Integral) : ∃ h'',
    (Restore.extension root : OnTree _) h' = (.ok ⟨[], [], 0⟩, h'') ∧
      ∀ z, h''.tree.get? z = h'.tree.get? z := by
  obtain ⟨text, -, htext⟩ := ho.holds
  have hplain := ho.plain_of_written ht htree
  have hmanifest := get?_of_written htree
  have hopened : OpenedAt h' root l d.clear :=
    ho.reopen ht hplain hworking (ho.isDirectory_of_written htree) hmanifest
      (Manifest.ofText_clear htext hints)
  obtain ⟨h'', hrun, htree''⟩ := hopened.extension_of_empty hplain (Manifest.applied_clear d)
  refine ⟨h'', hrun, fun z => ?_⟩
  rw [htree'', Manifest.clear_clear, Tree.get?_set _ (by simp)]
  split
  · rename_i heq
    rw [heq, hmanifest]
  · rfl

end

end OpenedAt

/-! ## 3. The extension -/

namespace Restore

variable {root : Path} {l : Location} {d : Manifest} {done : List String} {h₀ h h' : TreeHost}

/-- What a restoration that ends well has done to an extension at `l` with the manifest `d`. -/
structure Restored (root : Path) (l : Location) (d : Manifest) (h : TreeHost)
    (report : RestoreReport) (h' : TreeHost) : Prop where
  /-- Every recorded name is reported once. -/
  once : (report.restored ++ report.missingBackups).Nodup
  accounts : ∀ name, name ∈ report.restored ++ report.missingBackups ↔
    ∃ x ∈ d.applied, name ∈ x.2
  hadBackup : ∀ name ∈ report.restored, ∃ k s, NamedAt l name k s ∧
    (h.tree.get? (k ++ [s ++ backupSuffix])).isSome
  cleared : report.cleared = d.applied.length
  /-- A recorded file that had a backup holds what the backup held. -/
  moved : ∀ name ∈ d.appliedFiles, ∀ k s x, NamedAt l name k s →
    h.tree.get? (k ++ [s ++ backupSuffix]) = some x →
      h'.tree.get? (k ++ [s]) = some x ∧ h'.tree.get? (k ++ [s ++ backupSuffix]) = none
  others : ∀ z, z ≠ l ++ [manifestName] → Spared l d.appliedFiles h.tree z →
    h'.tree.get? z = h.tree.get? z
  /-- The manifest is the one that has been read, with an empty record. -/
  manifest : h'.tree.get? (l ++ [manifestName]) = some (.file d.clear.written.toUTF8)
  otherKeys : d.clear.others = d.others
  emptied : ∀ path d', Manifest.ofText path d.clear.written = .ok d' → d'.applied = []
  reread : d.Integral → Manifest.ofText d.path d.clear.written = .ok d.clear
  /-- Restoring again finds nothing to do. -/
  again : ∀ report' h'', (extension root : OnTree _) h' = (.ok report', h'') →
    report' = ⟨[], [], 0⟩ ∧ ∀ z, z ≠ l ++ [manifestName] → h''.tree.get? z = h'.tree.get? z
  again_unchanged : d.Integral → ∃ h'', (extension root : OnTree _) h' = (.ok ⟨[], [], 0⟩, h'') ∧
    ∀ z, h''.tree.get? z = h'.tree.get? z

/-- What a restoration that fails has done to an extension at `l` with the manifest `d`. -/
structure Interrupted (root : Path) (l : Location) (d : Manifest) (h h' : TreeHost) : Prop where
  /-- The manifest is as it was, and it is read as it was. -/
  manifest : h'.tree.get? (l ++ [manifestName]) = h.tree.get? (l ++ [manifestName])
  opens : OpenedAt h' root l d
  /-- Every recorded file is untouched, or it has been moved back. -/
  each : ∀ name ∈ d.appliedFiles, ∀ k s, NamedAt l name k s →
    (h'.tree.get? (k ++ [s]) = h.tree.get? (k ++ [s]) ∧
        h'.tree.get? (k ++ [s ++ backupSuffix]) = h.tree.get? (k ++ [s ++ backupSuffix])) ∨
      ∃ x, h.tree.get? (k ++ [s ++ backupSuffix]) = some x ∧ h'.tree.get? (k ++ [s]) = some x ∧
        h'.tree.get? (k ++ [s ++ backupSuffix]) = none
  others : ∀ z, Spared l d.appliedFiles h.tree z → h'.tree.get? z = h.tree.get? z

/-- How a restoration can end, in comparison with a host `h`. -/
inductive Ends (root : Path) (h : TreeHost) :
    Except ApplicationError RestoreReport → TreeHost → Prop
  | unopened {cause : ApplicationError} {h' : TreeHost} (hnot : ∀ e d, ¬ Opened h root e d)
      (hfiles : h.SameFiles h') : Ends root h (.error cause) h'
  | restored {l : Location} {d : Manifest} {report : RestoreReport} {h' : TreeHost}
      (ho : OpenedAt h root l d) (hrestored : Restored root l d h report h') :
      Ends root h (.ok report) h'
  | interrupted {l : Location} {d : Manifest} {cause : ApplicationError} {h' : TreeHost}
      (ho : OpenedAt h root l d) (hinterrupted : Interrupted root l d h h') :
      Ends root h (.error cause) h'

/-- A restoration fails and leaves a host. -/
def Fails (root : Path) (h h' : TreeHost) : Prop :=
  ∃ cause, (extension root : OnTree _) h = (.error cause, h')

namespace Underway

section

variable (hu : Underway l done h₀ h) (ht : h₀.tree.Plain) (ho : OpenedAt h₀ root l d)
  (hnames : ∀ name ∈ d.appliedFiles, Apart l name) (hdone : ∀ name ∈ done, name ∈ d.appliedFiles)
include hu hnames hdone

/-- The manifest is not touched before the end. -/
theorem get?_manifest :
    h.tree.get? (l ++ [manifestName]) = h₀.tree.get? (l ++ [manifestName]) := by
  refine hu.movedBack.others _ fun name hname k s hplace _ => ⟨fun heq => ?_, fun heq => ?_⟩
  · exact (hnames name (hdone name hname) k s hplace).2 heq.symm
  · exact manifestName_ne_backup s (concat_inj heq).2

include ht ho

theorem openedAt : OpenedAt h root l d := by
  obtain ⟨text, hget, htext⟩ := ho.holds
  exact ho.reopen ht hu.plain hu.working hu.directories
    ((hu.get?_manifest hnames hdone).trans hget) htext

theorem interrupted : Interrupted root l d h₀ h where
  manifest := hu.get?_manifest hnames hdone
  opens := hu.openedAt ht ho hnames hdone
  each name hname k s hplace :=
    hu.movedBack.file_cases (fun n hn => hnames n (hdone n hn)) (hnames name hname k s hplace).1
  others z hz := hu.movedBack.others z (hz.mono hdone)

/-- **When all names have been dealt with**, the manifest is written. -/
theorem restored (hall : ∀ name ∈ d.appliedFiles, name ∈ done) {answer : List String × List String}
    (hanswer : Answers l d.appliedFiles h₀ answer)
    (htree : h'.tree = h.tree.set (l ++ [manifestName]) (.file d.clear.written.toUTF8))
    (hworking : h'.working = h.working) :
    Restored root l d h₀ ⟨answer.1, answer.2, d.applied.length⟩ h' := by
  have hopened := hu.openedAt ht ho hnames hdone
  obtain ⟨text, -, htext⟩ := hopened.holds
  have hset : ∀ z, h'.tree.get? z = if z = l ++ [manifestName]
      then some (.file d.clear.written.toUTF8) else h.tree.get? z := fun z => by
    rw [htree, Tree.get?_set h.tree (by simp)]
  constructor
  · exact (hanswer.perm.nodup_iff).mpr (Manifest.nodup_appliedFiles d)
  · intro name
    exact hanswer.perm.mem_iff.trans Manifest.mem_appliedFiles
  · exact hanswer.hadBackup
  · rfl
  · intro name hname k s x hplace hx
    have hapart := hnames name hname k s hplace
    rw [hset, hset, if_neg hapart.2, if_neg]
    · exact hu.movedBack.moved name (hall name hname) k s x hplace hx
    · intro heq
      exact manifestName_ne_backup s (concat_inj heq).2.symm
  · intro z hz hspared
    rw [hset, if_neg hz]
    exact hu.movedBack.others z (hspared.mono hdone)
  · exact OpenedAt.get?_of_written htree
  · exact Manifest.others_acts d [.clear]
  · exact fun path d' hread => Manifest.applied_of_clear htext hread
  · exact Manifest.ofText_clear htext
  · exact fun report' h'' hagain => hopened.nothing_to_do hu.plain htree hworking hagain
  · exact hopened.changes_nothing hu.plain htree hworking

/-- **A restoration that is taken up** ends well, or it fails and is still under way. -/
theorem extension {r : Except ApplicationError RestoreReport}
    (hrun : (Restore.extension root : OnTree _) h = (r, h')) :
    (∃ report, r = .ok report ∧ Restored root l d h₀ report h') ∨
      ∃ cause more, r = .error cause ∧ (∀ name ∈ more, name ∈ d.appliedFiles) ∧
        Underway l more h₀ h' := by
  have hopened := hu.openedAt ht ho hnames hdone
  have hdone' : ∀ n ∈ done, Apart l n := fun n hn => hnames n (hdone n hn)
  have hall : ∀ {more : List String}, more <+: d.appliedFiles →
      ∀ name ∈ done ++ more, name ∈ d.appliedFiles := by
    intro more hmore name hname
    rcases List.mem_append.mp hname with hname | hname
    · exact hdone name hname
    · exact hmore.subset hname
  cases extensionRun hrun with
  | unopened hnot => exact absurd (hopened.opened hu.plain) (hnot _ _)
  | failed ho' hfiles =>
    obtain ⟨rfl, rfl⟩ := hopened.eq_of_opened hu.plain ho'
    obtain ⟨more, hmore, hu', -⟩ := hu.files rfl ho.names.left hdone' hnames hfiles
    exact Or.inr ⟨_, _, rfl, hall hmore, hu'⟩
  | unwritten ho' hfiles hfails =>
    obtain ⟨rfl, rfl⟩ := hopened.eq_of_opened hu.plain ho'
    obtain ⟨more, hmore, hu', -⟩ := hu.files rfl ho.names.left hdone' hnames hfiles
    -- the manifest can be written
    rw [(hu'.openedAt ht ho hnames (hall hmore)).replace_eq hu'.plain] at hfails
    cases hfails
  | written ho' hfiles hwrites hworking =>
    obtain ⟨rfl, rfl⟩ := hopened.eq_of_opened hu.plain ho'
    obtain ⟨more, hmore, hu', hok⟩ := hu.files rfl ho.names.left hdone' hnames hfiles
    obtain ⟨rfl, hanswer⟩ := hok _ rfl
    rw [(hu'.openedAt ht ho hnames (hall hmore)).replace_eq hu'.plain] at hwrites
    exact Or.inl ⟨_, rfl, hu'.restored ht ho hnames (hall hmore)
      (fun name hname => List.mem_append_right _ hname) hanswer (Except.ok.inj hwrites).symm
      hworking⟩

end

/-- However often it fails, it can be taken up again. -/
theorem of_fails (ht : h₀.tree.Plain) (hb : h₀.tree.BackupsAreFiles)
    (ho : OpenedAt h₀ root l d) (hnames : ∀ name ∈ d.appliedFiles, Apart l name)
    (hbefore : Relation.ReflTransGen (Fails root) h₀ h) :
    ∃ done, (∀ name ∈ done, name ∈ d.appliedFiles) ∧ Underway l done h₀ h := by
  induction hbefore with
  | refl => exact ⟨[], by simp, .start ht hb⟩
  | tail _ hfails ih =>
    obtain ⟨done, hdone, hu⟩ := ih
    obtain ⟨cause, hrun⟩ := hfails
    rcases hu.extension ht ho hnames hdone hrun with ⟨report, hr, -⟩ | ⟨-, more, -, hmore, hu'⟩
    · cases hr
    · exact ⟨more, hmore, hu'⟩

end Underway

/-- An extension that cannot be opened is not changed. -/
theorem sameFiles_of_unopened (hnot : ∀ e d, ¬ Opened h₀ root e d) (hfiles : h₀.SameFiles h)
    {r : Except ApplicationError RestoreReport}
    (hrun : (extension root : OnTree _) h = (r, h')) :
    (∃ cause, r = .error cause) ∧ h₀.SameFiles h' := by
  have hnot' : ∀ e d, ¬ Opened h root e d := by
    obtain ⟨htree, hworking⟩ := hfiles
    rintro e d ⟨hroot, hpath, hread⟩
    rw [htree, hworking] at hroot hread
    exact hnot e d ⟨hroot, hpath, hread⟩
  cases extensionRun hrun with
  | unopened _ hsame => exact ⟨⟨_, rfl⟩, hfiles.trans hsame⟩
  | failed ho => exact absurd ho (hnot' _ _)
  | unwritten ho => exact absurd ho (hnot' _ _)
  | written ho => exact absurd ho (hnot' _ _)

theorem sameFiles_of_fails (hnot : ∀ e d, ¬ Opened h root e d)
    (hbefore : Relation.ReflTransGen (Fails root) h h') : h.SameFiles h' := by
  induction hbefore with
  | refl => exact .refl h
  | tail _ hfails ih =>
    obtain ⟨cause, hrun⟩ := hfails
    exact (sameFiles_of_unopened hnot ih hrun).2

end Restore

/-- **Restoring moves back what is recorded**, and however often it has failed before, it can be
taken up again: the outcome is compared with the host before the first attempt. -/
theorem restore_moves_back {root : Path} {h h₁ h' : TreeHost}
    {r : Except ApplicationError RestoreReport} (ht : h.tree.Plain) (hb : h.tree.BackupsAreFiles)
    (hnames : ∀ e d, Opened h root e d → ∀ name ∈ d.appliedFiles, Restore.Ordinary name)
    (hbefore : Relation.ReflTransGen (Restore.Fails root) h h₁)
    (hrun : (Restore.extension root : OnTree _) h₁ = (r, h')) : Restore.Ends root h r h' := by
  by_cases hopen : ∃ e d, Opened h root e d
  · obtain ⟨e, d, ho⟩ := hopen
    obtain ⟨l, rfl, hl⟩ := ho.exists_openedAt ht
    have hapart : ∀ name ∈ d.appliedFiles, Restore.Apart l name :=
      fun name hname => (hnames _ d ho name hname).apart hb (hl.directory ht)
    obtain ⟨done, hdone, hu⟩ := Restore.Underway.of_fails ht hb hl hapart hbefore
    rcases hu.extension ht hl hapart hdone hrun with
      ⟨report, rfl, hrestored⟩ | ⟨cause, more, rfl, hmore, hu'⟩
    · exact .restored hl hrestored
    · exact .interrupted hl (hu'.interrupted ht hl hapart hmore)
  · have hnot : ∀ e d, ¬ Opened h root e d := fun e d ho => hopen ⟨e, d, ho⟩
    obtain ⟨⟨cause, rfl⟩, hfiles⟩ :=
      Restore.sameFiles_of_unopened hnot (Restore.sameFiles_of_fails hnot hbefore) hrun
    exact .unopened hnot hfiles

/-- An extension with a file that is recorded under two names and has been patched, and a directory
that is recorded, too. -/
def spelledTwice : Tree where
  entries := [(["x"], .directory),
    (["x", "package.json"], .file
      ("\x7b\"customPatches-appliedPatches\": " ++
        "\x7b\"i\": [\"a.js\", \"./a.js\", \".\"]\x7d\x7d").toUTF8),
    (["x", "a.js"], .file "onetwo".toUTF8), (["x", "a.js.backup"], .file "one".toUTF8)]

theorem spelledTwice_ends : spelledTwice.Plain ∧ spelledTwice.BackupsAreFiles ∧
    (∀ e d, Opened (.ofTree spelledTwice) ⟨"/x"⟩ e d →
      ∀ name ∈ d.appliedFiles, Restore.Ordinary name) ∧
    Relation.ReflTransGen (Restore.Fails ⟨"/x"⟩) (.ofTree spelledTwice) (.ofTree spelledTwice) ∧
    ∃ h', (Restore.extension ⟨"/x"⟩ : OnTree _) (.ofTree spelledTwice) =
        (.ok ⟨["a.js"], ["./a.js", "."], 1⟩, h') ∧
      Restore.Ends ⟨"/x"⟩ (.ofTree spelledTwice) (.ok ⟨["a.js"], ["./a.js", "."], 1⟩) h' := by
  have ht : spelledTwice.Plain := Tree.plain_of_isPlain (by decide +kernel)
  have hb : spelledTwice.BackupsAreFiles :=
    Tree.backupsAreFiles_of_hasFileBackups (by decide +kernel)
  have hnames : ∀ e d, Opened (.ofTree spelledTwice) ⟨"/x"⟩ e d →
      ∀ name ∈ d.appliedFiles, Restore.Ordinary name := by
    intro e d ho
    have hfiles : ((Apply.openTarget ⟨"/x"⟩ : OnTree _) (.ofTree spelledTwice)).1.toOption.all
        (fun x => x.2.appliedFiles.all fun name => decide (Restore.Ordinary name)) = true := by
      decide +kernel
    rw [ho.openTarget_eq] at hfiles
    have hall : (d.appliedFiles.all fun name => decide (Restore.Ordinary name)) = true := hfiles
    simpa using hall
  have hreport : ((Restore.extension ⟨"/x"⟩ : OnTree _) (.ofTree spelledTwice)).1.toOption =
      some ⟨["a.js"], ["./a.js", "."], 1⟩ := by
    decide +kernel
  have hrun : (Restore.extension ⟨"/x"⟩ : OnTree _) (.ofTree spelledTwice) =
      (.ok ⟨["a.js"], ["./a.js", "."], 1⟩, _) := Prod.ext (eq_ok_of_toOption hreport) rfl
  exact ⟨ht, hb, hnames, .refl, _, hrun, restore_moves_back ht hb hnames .refl hrun⟩

/-! ## 4. Numbers -/

/-- An extension whose manifest holds a number, spelled with some digits. -/
def numberTree (digits : String) : Tree where
  entries := [(["x"], .directory),
    (["x", "package.json"], .file ("\x7b\"a\": " ++ digits ++ "\x7d").toUTF8)]

/-- The manifest of this extension. -/
def numberManifest (n : JsonNumber) : Manifest where
  path := ⟨"/x/package.json"⟩
  members := [("a", .number n)]

section

open Json

theorem parse_number {word : Text} {n : JsonNumber} (hword : (Token.atom word).Proper)
    (hread : Read.value false 1 0 word = .ok (.number n, [])) :
    parse ("\x7b\"a\": ".toList ++ word ++ "\x7d".toList) =
      .ok (.object (numberManifest n).members) := by
  have hspaced : Spaced [.mark '\x7b', .literal ['a'], .mark ':', .atom word, .mark '\x7d']
      ("\x7b\"a\": ".toList ++ word ++ "\x7d".toList) := by
    have hend : Spaced [.mark '\x7d'] ['\x7d'] := .mark (by decide) .nil
    have hvalue : Spaced [.atom word, .mark '\x7d'] (word ++ ['\x7d']) :=
      .token hword (fun c hc => by cases hc; decide) hend
    rw [List.append_assoc]
    exact .mark (by decide) (.quote (s := "a") (.mark (by decide) (.blank (by decide) hvalue)))
  have hletter : Denotes ['a'] ['a'] := denotes_escape ['a']
  have hkeys : ∀ m ∈ [(⟨['a'], "a", [.atom word], .number n⟩ : MemberSpelling)],
      Denotes m.body m.key.toList := by simpa using hletter
  have hvalues : ∀ m ∈ [(⟨['a'], "a", [.atom word], .number n⟩ : MemberSpelling)],
      Spells 126 m.tokens m.value := List.forall_mem_singleton.mpr (.atom hread)
  exact (parse_eq_ok_iff hspaced).mpr (.object hkeys hvalues)

theorem value_zero {t : Text} {n : JsonNumber}
    (h : Read.number false false ('0' :: t) = .ok (n, [])) :
    Read.value false 1 0 ('0' :: t) = .ok (.number n, []) := by
  rw [Read.value_digit (by decide), h]
  rfl

/-- The number that is read from more digits than a significand has room for. -/
def fullNumber : JsonNumber :=
  .real (Read.lower 4 (Nat.toUInt64 12345678901234567890).toFloat (-20))

end

/-- Restoring such an extension writes the number that has been read. -/
theorem exists_restore_number (digits : String) {n : JsonNumber}
    (hword : (Json.Token.atom digits.toList).Proper)
    (hread : Json.Read.value false 1 0 digits.toList = .ok (.number n, [])) :
    ∃ h', (Restore.extension ⟨"/x"⟩ : OnTree _) (.ofTree (numberTree digits)) =
        (.ok ⟨[], [], 0⟩, h') ∧
      h'.tree.get? ["x", "package.json"] =
        some (.file (numberManifest n).clear.written.toUTF8) := by
  have ht : (numberTree digits).Plain := Tree.plain_of_isPlain rfl
  have hnames : AreNames (["x"] ++ [manifestName]) := ht.names _ rfl
  have htext : Manifest.ofText ⟨"/x/package.json"⟩ ("\x7b\"a\": " ++ digits ++ "\x7d") =
      .ok (numberManifest n) := by
    unfold Manifest.ofText
    rw [String.toList_append, String.toList_append, parse_number hword hread]
    rfl
  have ho : OpenedAt (.ofTree (numberTree digits)) ⟨"/x"⟩ ["x"] (numberManifest n) := by
    have hlocate : (numberTree digits).locate [] true
        (Path.ofNames (["x"] ++ [manifestName])) = .ok (["x"] ++ [manifestName]) := rfl
    exact ⟨rfl, hnames, ((Tree.locate_ofNames_iff ht.no_link hnames).mp hlocate).2, rfl, _, rfl,
      htext⟩
  obtain ⟨h', hrun, htree⟩ := ho.extension_of_empty ht rfl
  refine ⟨h', hrun, ?_⟩
  rw [htree]
  exact Tree.get?_set_self _ _ (by simp)

/-- **Restoring does not keep the digits of a number**: two manifests that hold different numbers are
the same after it, so at least one of the two values has changed. -/
theorem restore_drops_digits : ∃ h₁ h₂ b,
    (Restore.extension ⟨"/x"⟩ : OnTree _) (.ofTree (numberTree "0.123456789012345678901")) =
      (.ok ⟨[], [], 0⟩, h₁) ∧
    (Restore.extension ⟨"/x"⟩ : OnTree _) (.ofTree (numberTree "0.123456789012345678902")) =
      (.ok ⟨[], [], 0⟩, h₂) ∧
    h₁.tree.get? ["x", "package.json"] = some (.file b) ∧
    h₂.tree.get? ["x", "package.json"] = some (.file b) := by
  have hread₁ : Json.Read.value false 1 0 "0.123456789012345678901".toList =
      .ok (.number fullNumber, []) := value_zero rfl
  have hread₂ : Json.Read.value false 1 0 "0.123456789012345678902".toList =
      .ok (.number fullNumber, []) := value_zero rfl
  obtain ⟨h₁, hrun₁, hget₁⟩ :=
    exists_restore_number _ ⟨by decide, List.all_eq_true.mp rfl⟩ hread₁
  obtain ⟨h₂, hrun₂, hget₂⟩ :=
    exists_restore_number _ ⟨by decide, List.all_eq_true.mp rfl⟩ hread₂
  exact ⟨h₁, h₂, _, hrun₁, hrun₂, hget₁, hget₂⟩

end TextPatch
